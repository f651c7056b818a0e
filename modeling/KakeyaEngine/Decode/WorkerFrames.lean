import KakeyaEngine.Lib.ByteStream
import KakeyaEngine.Lib.Endian
import KakeyaEngine.Lib.Fallible
import KakeyaEngine.Lib.JsonCodec
import KakeyaEngine.Lib.PyJson
import KakeyaEngine.Orchestration.Document

/-!
# The frames of the decode worker's socket

A frame is the length of a header, the header as a JSON text, and a payload whose length the header has.  The frames that are
sent one after the other are received as they were, however the socket cuts the bytes into pieces, and a stream that ends
inside a frame gives the complete frames before it and then `EOFError` (`recvFrames_sent`).
-/

namespace KakeyaEngine

namespace WorkerFrames

open ByteStream

abbrev Bytes := List UInt8

/-- `MAX_HEADER_BYTES`. -/
def maxHeaderBytes : Nat := 2 ^ 20

/-- `MAX_PAYLOAD_BYTES`. -/
def maxPayloadBytes : Nat := 2 * 2 ^ 30

inductive FrameError (ε : Type)
  | eof
  | valueError (message : String)
  | attributeError
  | ofJson (e : ε)
  | ofConversion (e : Orchestration.CheckpointError)

variable {ε : Type} (J : JsonCodec ε) (u : Auth.Unicode)

/-! ### Sending and receiving -/

/-- `{**header, "payload_length": len(body)}`. -/
def fullHeader (header : Dict String PyValue) (payload : Bytes) : PyValue :=
  .dict (header.set "payload_length" (.int payload.length)).entries

/-- `_send_frame`: the bytes that are sent. -/
def sendFrame (header : Dict String PyValue) (payload : Bytes) : Except (FrameError ε) Bytes :=
  let encoded := J.dumps (fullHeader header payload)
  if encoded.length > maxHeaderBytes ∨ payload.length > maxPayloadBytes then
    .error (.valueError "decode worker frame exceeds protocol limits")
  else .ok (BigEndian.bytes 4 encoded.length ++ (encoded ++ payload))

/-- `_recv_exact`. -/
def receive (size : Nat) (s : List Bytes) : Except (FrameError ε) Bytes × List Bytes :=
  match recvExact size s with
  | (some data, s') => (.ok data, s')
  | (none, s') => (.error .eof, s')

/-- `header.pop("payload_length", 0)` of a decoded header, and the rest of it. -/
def popLength (header : PyValue) : Except (FrameError ε) (Dict String PyValue × PyValue) :=
  match header with
  | .dict entries =>
    let d := Dict.ofEntries entries
    .ok (d.erase "payload_length", (d.get? "payload_length").getD (.int 0))
  | _ => .error .attributeError

/-- The header of a text, with the length of the payload. -/
def readHeader (text : Bytes) : Except (FrameError ε) (Dict String PyValue × Nat) := do
  let decoded ← (J.loads text).mapError .ofJson
  let popped ← popLength decoded
  let size ← (Orchestration.toInt u popped.2).mapError .ofConversion
  if size < 0 ∨ size > maxPayloadBytes then .error (.valueError "invalid decode worker payload length")
  else .ok (popped.1, size.toNat)

/-- `_recv_frame`. -/
def recvFrame (s : List Bytes) : Except (FrameError ε) (Dict String PyValue × Bytes) × List Bytes :=
  match receive 4 s with
  | (.error e, s) => (.error e, s)
  | (.ok sizeField, s) =>
    let headerSize := BigEndian.value sizeField
    if headerSize = 0 ∨ headerSize > maxHeaderBytes then (.error (.valueError "invalid decode worker header length"), s)
    else
      match receive headerSize s with
      | (.error e, s) => (.error e, s)
      | (.ok text, s) =>
        match readHeader J u text with
        | .error e => (.error e, s)
        | .ok (header, payloadSize) =>
          match receive payloadSize s with
          | (.error e, s) => (.error e, s)
          | (.ok payload, s) => (.ok (header, payload), s)

/-- Receives up to a number of frames: those that arrive, and the error that ends it. -/
def recvFrames : (limit : Nat) → List Bytes → List (Dict String PyValue × Bytes) × Option (FrameError ε)
  | 0, _ => ([], none)
  | limit + 1, s =>
    match recvFrame J u s with
    | (.error e, _) => ([], some e)
    | (.ok frame, s') => (frame :: (recvFrames limit s').1, (recvFrames limit s').2)

/-! ### One frame -/

variable {J u}

/-- A frame that the assumption on the codec is about: its header has no length yet, and its text is not empty and is read
back. -/
structure Sendable (J : JsonCodec ε) (frame : Dict String PyValue × Bytes) : Prop where
  absent : frame.1.get? "payload_length" = none
  inverts : J.Inverts (fullHeader frame.1 frame.2)
  nonempty : J.dumps (fullHeader frame.1 frame.2) ≠ []

/-- The same header, up to the order of its entries, and the same payload. -/
def SameFrame (frame frame' : Dict String PyValue × Bytes) : Prop := PyValue.AlikeDict frame.1 frame'.1 ∧ frame.2 = frame'.2

theorem sendFrame_eq_ok {header : Dict String PyValue} {payload data : Bytes} (h : sendFrame J header payload = .ok data) :
    (J.dumps (fullHeader header payload)).length ≤ maxHeaderBytes ∧ payload.length ≤ maxPayloadBytes ∧
      data = BigEndian.bytes 4 (J.dumps (fullHeader header payload)).length ++
        (J.dumps (fullHeader header payload) ++ payload) := by
  unfold sendFrame at h
  dsimp only at h
  split at h
  · cases h
  · rename_i hlimits
    rw [not_or, Nat.not_lt, Nat.not_lt] at hlimits
    exact ⟨hlimits.1, hlimits.2, (Except.ok.inj h).symm⟩

theorem receive_append {s : List Bytes} (hs : Pieces s) {front back : Bytes} (h : s.flatten = front ++ back) :
    ∃ s', (receive front.length s : Except (FrameError ε) Bytes × List Bytes) = (.ok front, s') ∧ s'.flatten = back ∧ Pieces s' := by
  obtain ⟨s', hexact, hback, hs'⟩ := recvExact_append hs h
  refine ⟨s', ?_, hback, hs'⟩
  unfold receive
  rw [hexact]

theorem receive_short {s : List Bytes} (hs : Pieces s) {size : Nat} (h : s.flatten.length < size) :
    ∃ s', (receive size s : Except (FrameError ε) Bytes × List Bytes) = (.error .eof, s') := by
  refine ⟨(recvExact size s).2, ?_⟩
  unfold receive
  rw [show recvExact size s = (none, (recvExact size s).2) from Prod.ext (recvExact_of_short hs h) rfl]

/-- The header of a frame is read as it was, with the length of the payload taken out. -/
theorem readHeader_dumps {frame : Dict String PyValue × Bytes} (hframe : Sendable J frame)
    (hpayload : frame.2.length ≤ maxPayloadBytes) :
    ∃ header, readHeader J u (J.dumps (fullHeader frame.1 frame.2)) = .ok (header, frame.2.length) ∧
      PyValue.AlikeDict frame.1 header := by
  obtain ⟨w, hloads, halike⟩ := hframe.inverts
  unfold fullHeader at halike
  obtain ⟨d, hd, hsame⟩ := halike.mapping
  rw [Dict.ofEntries_entries] at hsame
  have hw : ∃ entries, w = .dict entries ∧ d = Dict.ofEntries entries := by
    cases w with
    | dict entries => exact ⟨entries, rfl, (Option.some.inj hd).symm⟩
    | _ => cases hd
  obtain ⟨entries, rfl, rfl⟩ := hw
  have hlength : (Dict.ofEntries entries).get? "payload_length" = some (.int frame.2.length) := by
    have hset : (frame.1.set "payload_length" (.int frame.2.length)).get? "payload_length" =
        some (.int frame.2.length) := by
      rw [Dict.get?_set, if_pos rfl]
    obtain ⟨v, hv, hint⟩ := hsame.get? hset
    rw [hv, hint.eq_int]
  have hrest : PyValue.AlikeDict frame.1 ((Dict.ofEntries entries).erase "payload_length") := by
    have herased := hsame.erase "payload_length"
    rwa [Dict.erase_set, Dict.erase_of_absent hframe.absent] at herased
  refine ⟨_, ?_, hrest⟩
  have hpopped : popLength (.dict entries) =
      (.ok ((Dict.ofEntries entries).erase "payload_length", .int frame.2.length) : Except (FrameError ε) _) := by
    unfold popLength
    dsimp only
    rw [hlength]
    rfl
  unfold readHeader
  rw [hloads]
  refine Fallible.bind_eq_ok.mpr ⟨_, rfl, Fallible.bind_eq_ok.mpr ⟨_, hpopped, Fallible.bind_eq_ok.mpr ⟨_, rfl, ?_⟩⟩⟩
  rw [if_neg (by omega)]
  rfl

/-- A frame at the beginning of the stream is received. -/
theorem recvFrame_sent {frame : Dict String PyValue × Bytes} (hframe : Sendable J frame) {data : Bytes}
    (hsent : sendFrame J frame.1 frame.2 = .ok data) {s : List Bytes} (hs : Pieces s) {back : Bytes}
    (h : s.flatten = data ++ back) :
    ∃ frame' s', recvFrame J u s = (.ok frame', s') ∧ SameFrame frame frame' ∧ s'.flatten = back ∧ Pieces s' := by
  obtain ⟨hheader, hpayload, rfl⟩ := sendFrame_eq_ok hsent
  set text := J.dumps (fullHeader frame.1 frame.2) with htext
  have hvalue : BigEndian.value (BigEndian.bytes 4 text.length) = text.length :=
    BigEndian.value_bytes (Nat.lt_of_le_of_lt hheader (by decide))
  have hnonempty : text.length ≠ 0 := fun hzero => hframe.nonempty (List.length_eq_zero_iff.mp hzero)
  rw [List.append_assoc, List.append_assoc] at h
  obtain ⟨s₁, hsize, h₁, hs₁⟩ := receive_append (ε := ε) hs h
  obtain ⟨s₂, hbody, h₂, hs₂⟩ := receive_append (ε := ε) hs₁ h₁
  obtain ⟨s₃, hrest, h₃, hs₃⟩ := receive_append (ε := ε) hs₂ h₂
  obtain ⟨header, hread, halike⟩ := readHeader_dumps (u := u) hframe hpayload
  rw [BigEndian.length_bytes] at hsize
  refine ⟨(header, frame.2), s₃, ?_, ⟨halike, rfl⟩, h₃, hs₃⟩
  unfold recvFrame
  rw [hsize]
  dsimp only
  rw [hvalue, if_neg (by omega), hbody]
  dsimp only
  rw [hread]
  dsimp only
  rw [hrest]

/-- What is cut off a text in two parts is cut off in the first part or in the second one. -/
theorem prefix_append_cases {α : Type} {cut front back : List α} (h : cut <+: front ++ back) :
    cut.length < front.length ∨ ∃ rest, cut = front ++ rest ∧ rest <+: back := by
  by_cases hshort : cut.length < front.length
  · exact .inl hshort
  · obtain ⟨rest, rfl⟩ := List.prefix_of_prefix_length_le (List.prefix_append front back) h (by omega)
    exact .inr ⟨rest, rfl, (List.prefix_append_right_inj front).mp h⟩

/-- A stream that ends inside a frame, or before it, ends in `EOFError`. -/
theorem recvFrame_cut {frame : Dict String PyValue × Bytes} (hframe : Sendable J frame) {data : Bytes}
    (hsent : sendFrame J frame.1 frame.2 = .ok data) {s : List Bytes} (hs : Pieces s) (hcut : s.flatten <+: data)
    (hne : s.flatten ≠ data) : (recvFrame J u s).1 = .error .eof := by
  obtain ⟨hheader, hpayload, rfl⟩ := sendFrame_eq_ok hsent
  set text := J.dumps (fullHeader frame.1 frame.2) with htext
  have hvalue : BigEndian.value (BigEndian.bytes 4 text.length) = text.length :=
    BigEndian.value_bytes (Nat.lt_of_le_of_lt hheader (by decide))
  have hnonempty : text.length ≠ 0 := fun hzero => hframe.nonempty (List.length_eq_zero_iff.mp hzero)
  unfold recvFrame
  rcases prefix_append_cases hcut with hshort | ⟨cut₁, h₁, hcut₁⟩
  · rw [BigEndian.length_bytes] at hshort
    obtain ⟨s₁, hsize⟩ := receive_short (ε := ε) hs hshort
    rw [hsize]
  obtain ⟨s₁, hsize, hflat₁, hs₁⟩ := receive_append (ε := ε) hs h₁
  rw [BigEndian.length_bytes] at hsize
  rw [hsize]
  dsimp only
  rw [hvalue, if_neg (by omega)]
  rcases prefix_append_cases hcut₁ with hshort | ⟨cut₂, rfl, hcut₂⟩
  · rw [← hflat₁] at hshort
    obtain ⟨s₂, hbody⟩ := receive_short (ε := ε) hs₁ hshort
    rw [hbody]
  obtain ⟨s₂, hbody, hflat₂, hs₂⟩ := receive_append (ε := ε) hs₁ hflat₁
  obtain ⟨header, hread, -⟩ := readHeader_dumps (u := u) hframe hpayload
  rw [hbody]
  dsimp only
  rw [hread]
  dsimp only
  have hshort : s₂.flatten.length < frame.2.length := by
    rw [hflat₂]
    refine Nat.lt_of_le_of_ne hcut₂.length_le fun hlength => hne ?_
    rw [h₁, hcut₂.eq_of_length hlength]
  obtain ⟨s₃, hrest⟩ := receive_short (ε := ε) hs₂ hshort
  rw [hrest]

/-! ### Streams of frames -/

/-- What may follow the last complete frame: nothing, or a part of another frame. -/
def CutFrame (J : JsonCodec ε) (tail : Bytes) : Prop :=
  tail = [] ∨ ∃ frame data, Sendable J frame ∧ sendFrame J frame.1 frame.2 = .ok data ∧ tail <+: data ∧ tail ≠ data

theorem recvFrame_tail {tail : Bytes} (htail : CutFrame J tail) {s : List Bytes} (hs : Pieces s) (h : s.flatten = tail) :
    (recvFrame J u s).1 = .error .eof := by
  rcases htail with rfl | ⟨frame, data, hframe, hsent, hcut, hne⟩
  · obtain ⟨s', hsize⟩ := receive_short (ε := ε) hs (show s.flatten.length < 4 by rw [h]; decide)
    unfold recvFrame
    rw [hsize]
  · exact recvFrame_cut hframe hsent hs (h ▸ hcut) (h ▸ hne)

/-- The frames that were sent are received as they were, in their order, however the bytes are cut into pieces, and nothing
else is: the stream ends in `EOFError`, also when it ends inside a frame. -/
theorem recvFrames_sent {frames : List (Dict String PyValue × Bytes)} {sent : List Bytes}
    (hsent : List.Forall₂ (fun frame data => sendFrame J frame.1 frame.2 = .ok data) frames sent)
    (hframes : ∀ frame ∈ frames, Sendable J frame) {tail : Bytes} (htail : CutFrame J tail) {s : List Bytes} (hs : Pieces s)
    (h : s.flatten = sent.flatten ++ tail) {limit : Nat} (hlimit : frames.length < limit) :
    ∃ received, recvFrames J u limit s = (received, some .eof) ∧ List.Forall₂ SameFrame frames received := by
  induction hsent generalizing s limit with
  | nil =>
    obtain ⟨n, rfl⟩ : ∃ n, limit = n + 1 := ⟨limit - 1, by omega⟩
    have heof := recvFrame_tail (u := u) htail hs h
    refine ⟨[], ?_, .nil⟩
    unfold recvFrames
    rw [show recvFrame J u s = (.error .eof, (recvFrame J u s).2) from Prod.ext heof rfl]
  | @cons frame data frames sent hfirst _ ih =>
    obtain ⟨n, rfl⟩ : ∃ n, limit = n + 1 := ⟨limit - 1, by omega⟩
    rw [List.length_cons] at hlimit
    rw [List.flatten_cons, List.append_assoc] at h
    obtain ⟨frame', s', hrecv, hsame, h', hs'⟩ :=
      recvFrame_sent (u := u) (hframes frame List.mem_cons_self) hfirst hs h
    obtain ⟨received, hreceived, hall⟩ := ih (fun f hf => hframes f (List.mem_cons_of_mem _ hf)) hs' h'
      (show frames.length < n by omega)
    refine ⟨frame' :: received, ?_, .cons hsame hall⟩
    unfold recvFrames
    rw [hrecv]
    dsimp only
    rw [hreceived]

/-! ### One frame in two pieces -/

def resetHeader : Dict String PyValue := ⟨[("op", .str "reset")], by decide⟩

/-- The header with the length of a payload of one byte. -/
def resetFull : PyValue := .dict [("op", .str "reset"), ("payload_length", .int 1)]

/-- Its text. -/
def resetText : Bytes := "\x7b\"op\":\"reset\",\"payload_length\":1\x7d".toList.map (fun c => UInt8.ofNat c.toNat)

/-- JSON on ASCII values, with the text of the header as the one that is read. -/
def resetJson : JsonCodec Unit where
  dumps v := (PyValue.dumps ⟨true, [','], [':']⟩ v).map fun c => UInt8.ofNat c.toNat
  loads text := if text = resetText then .ok resetFull else .error ()

def asciiDigits : Auth.Unicode := ⟨id, fun _ => none⟩

theorem reset_sendable : Sendable resetJson (resetHeader, [7]) := by
  have htext : resetJson.dumps (fullHeader resetHeader [7]) = resetText := by decide +kernel
  have hloads : resetJson.loads resetText = .ok resetFull := by
    show (if resetText = resetText then Except.ok resetFull else Except.error ()) = Except.ok resetFull
    rw [if_pos rfl]
  refine ⟨rfl, ⟨resetFull, ?_, PyValue.Alike.refl _⟩, ?_⟩
  · rw [htext]
    exact hloads
  · rw [htext]
    decide

/-- The frame. -/
def resetData : Bytes :=
  BigEndian.bytes 4 (resetJson.dumps (fullHeader resetHeader [7])).length ++
    (resetJson.dumps (fullHeader resetHeader [7]) ++ [7])

theorem sendFrame_reset : sendFrame resetJson resetHeader [7] = .ok resetData := by
  have hlength : (resetJson.dumps (fullHeader resetHeader [7])).length = 33 := by decide +kernel
  unfold sendFrame
  rw [if_neg (by rw [hlength]; decide)]
  rfl

theorem recvFrames_reset :
    ∃ received, recvFrames resetJson asciiDigits 2 [resetData.take 6, resetData.drop 6] = (received, some .eof) ∧
      List.Forall₂ SameFrame [(resetHeader, [7])] received :=
  recvFrames_sent (.cons sendFrame_reset .nil) (List.forall_mem_singleton.mpr reset_sendable) (.inl rfl)
    (show Pieces [resetData.take 6, resetData.drop 6] by unfold Pieces; decide +kernel)
    (by rw [List.flatten_cons, List.flatten_singleton, List.take_append_drop, List.flatten_singleton, List.append_nil])
    (by decide)

end WorkerFrames

end KakeyaEngine
