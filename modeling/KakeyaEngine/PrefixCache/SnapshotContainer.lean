import KakeyaEngine.Lib.Endian
import KakeyaEngine.Lib.JsonCodec
import KakeyaEngine.Lib.PyJson
import KakeyaEngine.Lib.PySlice
import KakeyaEngine.PrefixCache.TensorCodec

/-!
# The snapshot container

A snapshot is the magic, the length of a JSON header, the header, and the bytes of the tensors one after the other.  The
header lists the tensors with the offset and the length of their bytes.

`_unpack` reads what `_pack` wrote, and nothing that is shorter (`container_contract`): the length field fixes where the
header ends, so a strict prefix lacks a part of the header or of the last tensor with bytes.  What it accepts beyond that
has a whole header, and the bytes of every tensor lie in the raw part and fill its shape.  Nothing compares the size of the
raw part with the declared lengths, so bytes after the last tensor are accepted (`trailing_byte_accepted`).
-/

namespace KakeyaEngine

namespace SnapshotContainer

variable {reshapes : List Nat → Bool}

/-- A tensor with its name and its framework. -/
structure SnapshotTensor (reshapes : List Nat → Bool) where
  name : String
  wire : WireTensor reshapes
  framework : String

/-- The tensors under their names, in the order in which the names came. -/
abbrev Tensors (reshapes : List Nat → Bool) := List (PyValue × (WireTensor reshapes × PyValue))

/-! ### Packing -/

/-- `_MAGIC`. -/
def magic : Bytes := [75, 80, 75, 86, 49]

/-- The fields of a tensor in the header. -/
def fieldsOf (offset : Nat) (t : SnapshotTensor reshapes) : List (String × PyValue) :=
  [("name", .str t.name), ("dtype", .str t.wire.dtype.name),
    ("shape", .list ((t.wire.shape.map fun d : Nat => (d : Int)).map .int)), ("offset", .int offset),
    ("length", .int t.wire.data.length), ("framework", .str t.framework)]

/-- The loop of `_pack` over the tensors: the entries of the header. -/
def tensorMetas : Nat → List (SnapshotTensor reshapes) → List PyValue
  | _, [] => []
  | offset, t :: ts => PyValue.dict (fieldsOf offset t) :: tensorMetas (offset + t.wire.data.length) ts

def rawParts (tensors : List (SnapshotTensor reshapes)) : Bytes := tensors.flatMap (·.wire.data)

/-- What the header says. -/
def header (tensors : List (SnapshotTensor reshapes)) (metadata : Dict String PyValue) : PyValue :=
  .dict (metadata.set "tensors" (.list (tensorMetas 0 tensors))).entries

/-- Magic, header length, header and raw part. -/
def frame (text raw : Bytes) : Bytes := magic ++ (LittleEndian.bytes 4 text.length ++ (text ++ raw))

variable (J : JsonCodec SnapshotError)

/-- `_pack`. -/
def pack (tensors : List (SnapshotTensor reshapes)) (metadata : Dict String PyValue) : Except SnapshotError Bytes :=
  let text := J.dumps (header tensors metadata)
  if 2 ^ 32 ≤ text.length then .error (.structError "'I' format requires 0 <= number <= 4294967295")
  else .ok (frame text (rawParts tensors))

/-! ### Unpacking -/

variable (quote : String → String) (u : Auth.Unicode) (reshapes)

/-- `item[key]`. -/
def subscript (item : PyValue) (key : String) : Except SnapshotError PyValue :=
  match item.mapping? with
  | none => .error .typeError
  | some fields =>
    match fields.get? key with
    | some v => .ok v
    | none => .error (.keyError key)

/-- A key of a dictionary; lists and dictionaries cannot be keys. -/
def hashable : PyValue → Except SnapshotError PyValue
  | .list _ => .error .typeError
  | .dict _ => .error .typeError
  | v => .ok v

/-- `tensors[name] = value`. -/
def setTensor (name : PyValue) (value : WireTensor reshapes × PyValue) : Tensors reshapes → Tensors reshapes
  | [] => [(name, value)]
  | entry :: entries =>
    if entry.1.same name then (entry.1, value) :: entries else entry :: setTensor name value entries

/-- The declared bytes of an item. -/
def readRange (raw : Bytes) (item : PyValue) : Except SnapshotError Bytes := do
  let start ← subscript item "offset" >>= TensorCodec.int u
  let length ← subscript item "length" >>= TensorCodec.int u
  if start < 0 ∨ (raw.length : Int) < start + length then
    .error (.valueError "truncated prefill snapshot tensor")
  else .ok (pySlice raw start (start + length))

/-- The tensor of an item, with its name. -/
def readItem (raw : Bytes) (item : PyValue) : Except SnapshotError (PyValue × (WireTensor reshapes × PyValue)) := do
  let data ← readRange u raw item
  let dtype ← subscript item "dtype"
  let shape ← subscript item "shape"
  let wire ← TensorCodec.fromProtoFields quote u reshapes dtype shape data
  let framework ← subscript item "framework"
  let name ← subscript item "name" >>= hashable
  pure (name, (wire, framework))

/-- The loop of `_unpack` over the items. -/
def readItems (raw : Bytes) : List PyValue → Tensors reshapes → Except SnapshotError (Tensors reshapes)
  | [], tensors => .ok tensors
  | item :: items, tensors => do
    let t ← readItem reshapes quote u raw item
    readItems raw items (setTensor reshapes t.1 t.2 tensors)

/-- `metadata.pop("tensors")`: the rest of the mapping, and the items. -/
def popTensors : PyValue → Except SnapshotError (Dict String PyValue × PyValue)
  | .dict entries =>
    match (Dict.ofEntries entries).get? "tensors" with
    | some v => .ok ((Dict.ofEntries entries).erase "tensors", v)
    | none => .error (.keyError "tensors")
  | .list _ => .error .typeError
  | _ => .error .attributeError

/-- `_unpack` of a header and a raw part. -/
def readBody (text raw : Bytes) : Except SnapshotError (Dict String PyValue × Tensors reshapes) := do
  let metadata ← J.loads text
  let popped ← popTensors metadata
  let items ← TensorCodec.iterate popped.2
  let tensors ← readItems reshapes quote u raw items []
  pure (popped.1, tensors)

/-- `_unpack`. -/
def unpack (payload : Bytes) : Except SnapshotError (Dict String PyValue × Tensors reshapes) :=
  if ¬ magic <+: payload ∨ payload.length < magic.length + 4 then .error (.valueError "invalid prefill snapshot magic")
  else
    let headerLen := LittleEndian.value ((payload.drop magic.length).take 4)
    let headerStart := magic.length + 4
    let headerEnd := headerStart + headerLen
    if payload.length < headerEnd then .error (.valueError "truncated prefill snapshot header")
    else readBody reshapes J quote u ((payload.take headerEnd).drop headerStart) (payload.drop headerEnd)

/-! ### Frames -/

variable {J quote u reshapes}

theorem unpack_frame {text : Bytes} (raw : Bytes) (h : text.length < 2 ^ 32) :
    unpack reshapes J quote u (frame text raw) = readBody reshapes J quote u text raw := by
  have hsize : (LittleEndian.bytes 4 text.length).length = 4 := LittleEndian.length_bytes 4 _
  have hfield : ((frame text raw).drop magic.length).take 4 = LittleEndian.bytes 4 text.length := by
    unfold frame
    rw [List.drop_left, List.take_left' hsize]
  have hsplit : frame text raw = (magic ++ LittleEndian.bytes 4 text.length) ++ (text ++ raw) :=
    (List.append_assoc ..).symm
  have hstart : magic.length + 4 = (magic ++ LittleEndian.bytes 4 text.length).length := by
    rw [List.length_append, hsize]
  have hlength : (frame text raw).length = magic.length + 4 + (text.length + raw.length) := by
    rw [hsplit, List.length_append, ← hstart, List.length_append]
  unfold unpack
  rw [if_neg (by
    rintro (hno | hshort)
    · exact hno (List.prefix_append ..)
    · omega)]
  dsimp only
  rw [hfield, LittleEndian.value_bytes h, if_neg (by omega), hsplit, hstart, List.take_length_add_append, List.take_left,
    List.drop_left, List.drop_length_add_append, List.drop_left]

/-- What is accepted is a frame. -/
theorem unpack_eq_ok {payload : Bytes} {r : Dict String PyValue × Tensors reshapes}
    (h : unpack reshapes J quote u payload = .ok r) :
    ∃ text raw : Bytes, text.length < 2 ^ 32 ∧ payload = frame text raw ∧ readBody reshapes J quote u text raw = .ok r := by
  unfold unpack at h
  split at h
  · cases h
  · rename_i hmagic
    rw [not_or, not_not] at hmagic
    obtain ⟨⟨rest, rfl⟩, hlen⟩ := hmagic
    dsimp only at h
    rw [List.drop_left] at h
    have hrest : 4 ≤ rest.length := by
      rw [List.length_append] at hlen
      omega
    have hfield : (rest.take 4).length = 4 := by rw [List.length_take, Nat.min_eq_left hrest]
    split at h
    · cases h
    · rename_i hwhole
      have hvalue := LittleEndian.value_lt (rest.take 4)
      have hbytes := LittleEndian.bytes_value (rest.take 4)
      rw [hfield] at hvalue hbytes
      generalize hn : LittleEndian.value (rest.take 4) = n at h hwhole hvalue hbytes
      have hn' : n ≤ (rest.drop 4).length := by
        rw [List.length_append] at hwhole
        rw [List.length_drop]
        omega
      have htext : ((magic ++ rest).take (magic.length + 4 + n)).drop (magic.length + 4) = (rest.drop 4).take n := by
        rw [Nat.add_assoc, List.take_length_add_append, List.drop_length_add_append, List.drop_take,
          Nat.add_sub_cancel_left]
      have hraw : (magic ++ rest).drop (magic.length + 4 + n) = (rest.drop 4).drop n := by
        rw [Nat.add_assoc, List.drop_length_add_append, List.drop_drop]
      rw [htext, hraw] at h
      have hlength : ((rest.drop 4).take n).length = n := by rw [List.length_take, Nat.min_eq_left hn']
      refine ⟨_, _, by rw [hlength]; exact hvalue, ?_, h⟩
      unfold frame
      rw [hlength, hbytes, List.take_append_drop, List.take_append_drop]

/-- A frame inside a frame has the same header. -/
theorem frame_prefix {text raw text' raw' : Bytes} (h : text.length < 2 ^ 32) (h' : text'.length < 2 ^ 32)
    (hp : frame text' raw' <+: frame text raw) : text' = text ∧ raw' <+: raw := by
  obtain ⟨rest, hrest⟩ := hp
  unfold frame at hrest
  rw [List.append_assoc, List.append_assoc, List.append_assoc] at hrest
  obtain ⟨hfield, hbody⟩ := List.append_inj (List.append_cancel_left hrest) (by simp)
  have hread : ∀ n : Nat, n < 2 ^ 32 → LittleEndian.value (LittleEndian.bytes 4 n) = n := fun n hn =>
    LittleEndian.value_bytes hn
  have hlength : text'.length = text.length := by rw [← hread _ h', ← hread _ h, hfield]
  obtain ⟨htext, hraw⟩ := List.append_inj hbody hlength
  exact ⟨htext, rest, hraw⟩

/-! ### Items -/

/-- What `_unpack` gives for the tensors. -/
def entriesOf (tensors : List (SnapshotTensor reshapes)) : Tensors reshapes :=
  tensors.map fun t => (.str t.name, (t.wire, .str t.framework))

theorem nodup_fieldsOf (offset : Nat) (t : SnapshotTensor reshapes) : ((fieldsOf offset t).map Prod.fst).Nodup := by
  show ["name", "dtype", "shape", "offset", "length", "framework"].Nodup
  decide

/-- A field of the entry of a tensor, in what the entry came back as. -/
theorem subscript_fieldsOf {offset : Nat} {t : SnapshotTensor reshapes} {item : PyValue}
    (h : (PyValue.dict (fieldsOf offset t)).Alike item) {key : String} {v : PyValue} (hmem : (key, v) ∈ fieldsOf offset t) :
    ∃ w, subscript item key = .ok w ∧ v.Alike w := by
  have hv : (Dict.ofEntries (fieldsOf offset t)).get? key = some v := by
    rw [← Dict.mem_entries_iff, Dict.entries_ofEntries (nodup_fieldsOf offset t)]
    exact hmem
  obtain ⟨d, hd, halike⟩ := h.mapping
  obtain ⟨w, hw, hvw⟩ := halike.get? hv
  refine ⟨w, ?_, hvw⟩
  unfold subscript
  rw [hd]
  dsimp only
  rw [hw]

/-- The range that is declared for a tensor. -/
theorem range_fieldsOf {offset : Nat} {t : SnapshotTensor reshapes} {item : PyValue}
    (h : (PyValue.dict (fieldsOf offset t)).Alike item) :
    (subscript item "offset" >>= TensorCodec.int u) = .ok (offset : Int) ∧
      (subscript item "length" >>= TensorCodec.int u) = .ok (t.wire.data.length : Int) := by
  obtain ⟨o, ho, halike⟩ := subscript_fieldsOf h (show ("offset", .int offset) ∈ fieldsOf offset t by simp [fieldsOf])
  obtain rfl := halike.eq_int
  obtain ⟨l, hl, halike⟩ :=
    subscript_fieldsOf h (show ("length", .int t.wire.data.length) ∈ fieldsOf offset t by simp [fieldsOf])
  obtain rfl := halike.eq_int
  rw [ho, hl]
  exact ⟨rfl, rfl⟩

/-- The other fields of a tensor. -/
theorem subscript_rest {offset : Nat} {t : SnapshotTensor reshapes} {item : PyValue}
    (h : (PyValue.dict (fieldsOf offset t)).Alike item) :
    subscript item "name" = .ok (.str t.name) ∧ subscript item "dtype" = .ok (.str t.wire.dtype.name) ∧
      subscript item "shape" = .ok (.list (t.wire.shape.map fun d : Nat => .int d)) ∧
      subscript item "framework" = .ok (.str t.framework) := by
  obtain ⟨name, hname, halike⟩ := subscript_fieldsOf h (show ("name", .str t.name) ∈ fieldsOf offset t by simp [fieldsOf])
  obtain rfl := halike.eq_str
  obtain ⟨dtype, hdtype, halike⟩ :=
    subscript_fieldsOf h (show ("dtype", .str t.wire.dtype.name) ∈ fieldsOf offset t by simp [fieldsOf])
  obtain rfl := halike.eq_str
  obtain ⟨shape, hshape, halike⟩ :=
    subscript_fieldsOf h (show ("shape", .list ((t.wire.shape.map fun d : Nat => (d : Int)).map .int)) ∈
      fieldsOf offset t by simp [fieldsOf])
  obtain rfl := halike.eq_ints
  obtain ⟨framework, hframework, halike⟩ :=
    subscript_fieldsOf h (show ("framework", .str t.framework) ∈ fieldsOf offset t by simp [fieldsOf])
  obtain rfl := halike.eq_str
  rw [List.map_map] at hshape
  exact ⟨hname, hdtype, hshape, hframework⟩

/-- The entry of a tensor gives the tensor when its bytes are where the entry says. -/
theorem readItem_fieldsOf {t : SnapshotTensor reshapes} {item : PyValue} (before after : Bytes)
    (h : (PyValue.dict (fieldsOf before.length t)).Alike item) :
    readItem reshapes quote u (before ++ (t.wire.data ++ after)) item =
      .ok (.str t.name, (t.wire, .str t.framework)) := by
  obtain ⟨hoffset, hlength⟩ := range_fieldsOf (u := u) h
  obtain ⟨hname, hdtype, hshape, hframework⟩ := subscript_rest h
  have hrange : readRange u (before ++ (t.wire.data ++ after)) item = .ok t.wire.data := by
    have hslice := pySlice_append before t.wire.data after
    rw [Nat.cast_add] at hslice
    unfold readRange
    rw [hoffset, hlength]
    show (if _ then _ else _) = _
    rw [if_neg (by
      simp only [List.length_append]
      omega), hslice]
  have hwire := TensorCodec.fromProtoFields_fields quote u t.wire
  unfold readItem
  rw [hrange, hdtype, hshape, hframework, hname]
  simp only [bind, Except.bind, hwire]
  rfl

/-- A new name comes last. -/
theorem setTensor_new {tensors : Tensors reshapes} {name : PyValue} (value : WireTensor reshapes × PyValue)
    (h : ∀ entry ∈ tensors, entry.1.same name = false) :
    setTensor reshapes name value tensors = tensors ++ [(name, value)] := by
  induction tensors with
  | nil => rfl
  | cons entry entries ih =>
    have hentry := h entry (List.mem_cons_self ..)
    unfold setTensor
    rw [hentry, if_neg Bool.false_ne_true, ih fun e he => h e (List.mem_cons_of_mem _ he)]
    rfl

variable (quote u) in
/-- The entries of distinctly named tensors give the tensors, in order. -/
theorem readItems_tensorMetas (before after : Bytes) (done : List (SnapshotTensor reshapes))
    {tensors : List (SnapshotTensor reshapes)} {items : List PyValue} (hnames : ((done ++ tensors).map (·.name)).Nodup)
    (h : List.Forall₂ PyValue.Alike (tensorMetas before.length tensors) items) :
    readItems reshapes quote u (before ++ (rawParts tensors ++ after)) items (entriesOf done) =
      .ok (entriesOf (done ++ tensors)) := by
  induction tensors generalizing before done items with
  | nil =>
    obtain rfl := List.forall₂_nil_left_iff.mp h
    rw [List.append_nil]
    rfl
  | cons t ts ih =>
    obtain ⟨item, items', hitem, hitems, rfl⟩ := List.forall₂_cons_left_iff.mp h
    have hraw : before ++ (rawParts (t :: ts) ++ after) = before ++ (t.wire.data ++ (rawParts ts ++ after)) := by
      unfold rawParts
      rw [List.flatMap_cons, List.append_assoc]
    have hnew : ∀ entry ∈ entriesOf done, entry.1.same (.str t.name) = false := fun entry hentry => by
      obtain ⟨d, hd, rfl⟩ := List.mem_map.mp hentry
      rw [List.map_append, List.nodup_append'] at hnames
      refine decide_eq_false fun heq => ?_
      exact hnames.2.2 (List.mem_map_of_mem hd) (heq ▸ List.mem_cons_self ..)
    have hdone : entriesOf done ++ [(.str t.name, (t.wire, .str t.framework))] = entriesOf (done ++ [t]) := by
      unfold entriesOf
      rw [List.map_append]
      rfl
    have hih := ih (before ++ t.wire.data) (done ++ [t]) (by rwa [List.append_assoc]) (by rwa [List.length_append])
    unfold readItems
    rw [hraw, readItem_fieldsOf before _ hitem]
    show readItems reshapes quote u _ _ (setTensor reshapes _ _ _) = _
    rw [setTensor_new _ hnew, hdone, ← List.append_assoc before, hih, List.append_assoc]
    rfl

/-! ### What is accepted -/

/-- The bytes of a tensor are those of the range that an item declares, and the range lies in the raw part.  They fill the
declared shape, as those of every `WireTensor` do. -/
structure Covers (quote : String → String) (u : Auth.Unicode) (raw : Bytes) (item : PyValue) (wire : WireTensor reshapes)
    (offset length : Int) : Prop where
  offset_eq : (subscript item "offset" >>= TensorCodec.int u) = .ok offset
  length_eq : (subscript item "length" >>= TensorCodec.int u) = .ok length
  nonneg : 0 ≤ offset
  inside : offset + length ≤ raw.length
  data_eq : wire.data = pySlice raw offset (offset + length)
  dtype_eq : (subscript item "dtype" >>= TensorCodec.lookupDtype quote) = .ok wire.dtype
  shape_eq : ∃ sizes, (subscript item "shape" >>= TensorCodec.iterate) = .ok sizes ∧
    sizes.mapM (TensorCodec.dimension quote u sizes) = .ok wire.shape

/-- A declared length that is not negative is the number of bytes that the shape asks for. -/
theorem Covers.length_fits {raw : Bytes} {item : PyValue} {wire : WireTensor reshapes} {offset length : Int}
    (h : Covers quote u raw item wire offset length) (hlength : 0 ≤ length) :
    length = (wire.shape.prod * wire.dtype.size : Nat) := by
  have hinside := h.inside
  obtain ⟨start, rfl⟩ := Int.eq_ofNat_of_zero_le h.nonneg
  obtain ⟨n, rfl⟩ := Int.eq_ofNat_of_zero_le hlength
  have hdata := h.data_eq
  rw [← Nat.cast_add, pySlice_of_nonneg (by omega)] at hdata
  rw [← wire.sized, hdata, List.length_drop, List.length_take]
  omega

theorem readRange_eq_ok {raw data : Bytes} {item : PyValue} (h : readRange u raw item = .ok data) :
    ∃ offset length : Int, (subscript item "offset" >>= TensorCodec.int u) = .ok offset ∧
      (subscript item "length" >>= TensorCodec.int u) = .ok length ∧ 0 ≤ offset ∧ offset + length ≤ raw.length ∧
      data = pySlice raw offset (offset + length) := by
  unfold readRange at h
  obtain ⟨offset, hoffset, h⟩ := Fallible.bind_eq_ok.mp h
  obtain ⟨length, hlength, h⟩ := Fallible.bind_eq_ok.mp h
  split at h
  · cases h
  · rename_i hrange
    rw [not_or, Int.not_lt, Int.not_lt] at hrange
    exact ⟨offset, length, hoffset, hlength, hrange.1, hrange.2, (Except.ok.inj h).symm⟩

theorem readItem_eq_ok {raw : Bytes} {item : PyValue} {t : PyValue × (WireTensor reshapes × PyValue)}
    (h : readItem reshapes quote u raw item = .ok t) :
    ∃ offset length : Int, Covers quote u raw item t.2.1 offset length := by
  unfold readItem at h
  obtain ⟨data, hdata, h⟩ := Fallible.bind_eq_ok.mp h
  obtain ⟨dtype, hdtype, h⟩ := Fallible.bind_eq_ok.mp h
  obtain ⟨shape, hshape, h⟩ := Fallible.bind_eq_ok.mp h
  obtain ⟨wire, hwire, h⟩ := Fallible.bind_eq_ok.mp h
  obtain ⟨framework, -, h⟩ := Fallible.bind_eq_ok.mp h
  obtain ⟨name, -, h⟩ := Fallible.bind_eq_ok.mp h
  obtain rfl := Except.ok.inj h
  obtain ⟨offset, length, hoffset, hlength, hnonneg, hinside, rfl⟩ := readRange_eq_ok hdata
  obtain ⟨hdtype', ⟨sizes, hsizes, hdims⟩, hdata⟩ := TensorCodec.fromProtoFields_eq_ok hwire
  exact ⟨offset, length, hoffset, hlength, hnonneg, hinside, hdata, Fallible.bind_eq_ok.mpr ⟨dtype, hdtype, hdtype'⟩,
    ⟨sizes, Fallible.bind_eq_ok.mpr ⟨shape, hshape, hsizes⟩, hdims⟩⟩

theorem mem_setTensor {name : PyValue} {value : WireTensor reshapes × PyValue} {tensors : Tensors reshapes}
    {entry : PyValue × (WireTensor reshapes × PyValue)} (h : entry ∈ setTensor reshapes name value tensors) :
    entry ∈ tensors ∨ entry.2 = value := by
  induction tensors with
  | nil => exact .inr (congrArg Prod.snd (List.mem_singleton.mp h))
  | cons e es ih =>
    unfold setTensor at h
    split at h
    · rcases List.mem_cons.mp h with rfl | h
      · exact .inr rfl
      · exact .inl (List.mem_cons_of_mem _ h)
    · rcases List.mem_cons.mp h with rfl | h
      · exact .inl (List.mem_cons_self ..)
      · exact (ih h).imp (List.mem_cons_of_mem _) id

/-- Every item was read, and every tensor was read from an item. -/
theorem readItems_eq_ok {raw : Bytes} {items : List PyValue} {done tensors : Tensors reshapes}
    (h : readItems reshapes quote u raw items done = .ok tensors) :
    (∀ item ∈ items, ∃ wire : WireTensor reshapes, ∃ offset length : Int, Covers quote u raw item wire offset length) ∧
      ∀ entry ∈ tensors, entry ∈ done ∨ ∃ item ∈ items, ∃ offset length : Int,
        Covers quote u raw item entry.2.1 offset length := by
  induction items generalizing done with
  | nil =>
    obtain rfl := Except.ok.inj h
    exact ⟨List.forall_mem_nil _, fun entry hentry => .inl hentry⟩
  | cons item items ih =>
    unfold readItems at h
    obtain ⟨t, ht, h⟩ := Fallible.bind_eq_ok.mp h
    obtain ⟨offset, length, hcovers⟩ := readItem_eq_ok ht
    obtain ⟨hitems, htensors⟩ := ih h
    refine ⟨List.forall_mem_cons.mpr ⟨⟨_, offset, length, hcovers⟩, hitems⟩, fun entry hentry => ?_⟩
    rcases htensors entry hentry with hset | ⟨item', hitem', hcovers'⟩
    · rcases mem_setTensor hset with hdone | heq
      · exact .inl hdone
      · exact .inr ⟨item, List.mem_cons_self .., offset, length, heq ▸ hcovers⟩
    · exact .inr ⟨item', List.mem_cons_of_mem _ hitem', hcovers'⟩

/-- When the declared ranges lie in the raw part, all bytes of the tensors do. -/
theorem length_rawParts_le {tensors : List (SnapshotTensor reshapes)} {items : List PyValue} {raw : Bytes} {offset : Nat}
    (h : List.Forall₂ PyValue.Alike (tensorMetas offset tensors) items)
    (hcovers : ∀ item ∈ items, ∃ wire : WireTensor reshapes, ∃ start length : Int,
      Covers quote u raw item wire start length) :
    rawParts tensors = [] ∨ offset + (rawParts tensors).length ≤ raw.length := by
  induction tensors generalizing offset items with
  | nil => exact .inl rfl
  | cons t ts ih =>
    obtain ⟨item, items', hitem, hitems, rfl⟩ := List.forall₂_cons_left_iff.mp h
    obtain ⟨hitem', hitems'⟩ := List.forall_mem_cons.mp hcovers
    obtain ⟨wire, start, length, hc⟩ := hitem'
    obtain ⟨hoffset, hlength⟩ := range_fieldsOf (u := u) hitem
    obtain rfl : (offset : Int) = start := Except.ok.inj (hoffset.symm.trans hc.offset_eq)
    obtain rfl : (t.wire.data.length : Int) = length := Except.ok.inj (hlength.symm.trans hc.length_eq)
    have hinside := hc.inside
    have hparts : rawParts (t :: ts) = t.wire.data ++ rawParts ts := List.flatMap_cons
    rw [hparts, List.length_append]
    rcases ih hitems hitems' with hnil | hle
    · rw [hnil, List.length_nil]
      exact .inr (by omega)
    · exact .inr (by omega)

/-! ### The contract -/

variable (quote u) in
/-- Reading the header that was written, with any raw part behind it. -/
theorem readBody_header {tensors : List (SnapshotTensor reshapes)} {metadata : Dict String PyValue}
    (hjson : J.Inverts (header tensors metadata)) (habsent : metadata.get? "tensors" = none) :
    ∃ metadata' items, PyValue.AlikeDict metadata metadata' ∧
      List.Forall₂ PyValue.Alike (tensorMetas 0 tensors) items ∧
      ∀ raw, readBody reshapes J quote u (J.dumps (header tensors metadata)) raw =
        (readItems reshapes quote u raw items []).map fun read => (metadata', read) := by
  obtain ⟨w, hloads, halike⟩ := hjson
  obtain ⟨d, hd, hentries⟩ := PyValue.Alike.mapping halike
  rw [Dict.ofEntries_entries] at hentries
  obtain ⟨v, hv, hmetas⟩ := hentries.get? (Dict.get?_set_self metadata "tensors" _)
  obtain ⟨items, rfl, hitems⟩ := hmetas.list_eq
  have hrest := hentries.erase "tensors"
  rw [Dict.erase_set, Dict.erase_of_absent habsent] at hrest
  refine ⟨d.erase "tensors", items, hrest, hitems, fun raw => ?_⟩
  have hpop : popTensors w = .ok (d.erase "tensors", .list items) := by
    cases halike with
    | dict =>
      obtain rfl := Option.some.inj hd
      unfold popTensors
      dsimp only
      rw [hv]
  have hiterate : TensorCodec.iterate (.list items) = .ok items := rfl
  unfold readBody
  simp only [bind, Except.bind, hloads, hpop, hiterate]
  rfl

variable (reshapes) in
/-- `_unpack` gives the tensors and the metadata that were packed, and refuses every strict prefix of the payload.  What it
accepts is a frame whose tensors fill their shapes with bytes of the raw part. -/
theorem container_contract (J : JsonCodec SnapshotError) (quote : String → String) (u : Auth.Unicode) :
    (∀ (tensors : List (SnapshotTensor reshapes)) (metadata : Dict String PyValue) (payload : Bytes),
      (tensors.map (·.name)).Nodup → metadata.get? "tensors" = none → J.Inverts (header tensors metadata) →
      pack J tensors metadata = .ok payload →
      (∃ metadata', unpack reshapes J quote u payload = .ok (metadata', entriesOf tensors) ∧
        PyValue.AlikeDict metadata metadata') ∧
      ∀ front : Bytes, front <+: payload → front ≠ payload → ∃ e, unpack reshapes J quote u front = .error e) ∧
    ∀ (payload : Bytes) (metadata : Dict String PyValue) (tensors : Tensors reshapes),
      unpack reshapes J quote u payload = .ok (metadata, tensors) →
      ∃ (text raw : Bytes) (said listed : PyValue) (items : List PyValue),
        text.length < 2 ^ 32 ∧ payload = frame text raw ∧ J.loads text = .ok said ∧
        popTensors said = .ok (metadata, listed) ∧ TensorCodec.iterate listed = .ok items ∧
        (∀ item ∈ items, ∃ (wire : WireTensor reshapes) (offset length : Int), Covers quote u raw item wire offset length ∧
          (0 ≤ length → length = (wire.shape.prod * wire.dtype.size : Nat))) ∧
        ∀ entry ∈ tensors, ∃ item ∈ items, ∃ offset length : Int, Covers quote u raw item entry.2.1 offset length := by
  refine ⟨fun tensors metadata payload hnames habsent hjson hpack => ?_, fun payload metadata tensors h => ?_⟩
  · obtain ⟨metadata', items, hmetadata, hitems, hbody⟩ := readBody_header quote u hjson habsent
    unfold pack at hpack
    dsimp only at hpack
    split at hpack
    · cases hpack
    · rename_i hlength
      obtain rfl := Except.ok.inj hpack
      have htext := Nat.lt_of_not_le hlength
      refine ⟨⟨metadata', ?_, hmetadata⟩, fun front hfront hne => ?_⟩
      · have hread := readItems_tensorMetas quote u [] [] [] hnames hitems
        rw [List.nil_append, List.append_nil] at hread
        rw [unpack_frame _ htext, hbody]
        exact congrArg (Except.map _) hread
      · cases hresult : unpack reshapes J quote u front with
        | error e => exact ⟨e, rfl⟩
        | ok r =>
          -- the header is whole, so bytes of the raw part are missing, and one of the tensors has them
          obtain ⟨text', raw', htext', rfl, hread⟩ := unpack_eq_ok hresult
          obtain ⟨rfl, hraw⟩ := frame_prefix htext htext' hfront
          rw [hbody] at hread
          obtain ⟨read, hread, -⟩ := Fallible.map_eq_ok.mp hread
          have hall := length_rawParts_le hitems (readItems_eq_ok hread).1
          have hlen : (rawParts tensors).length ≤ raw'.length := by
            rcases hall with hnil | hle
            · rw [hnil]
              exact Nat.zero_le _
            · omega
          exact absurd (congrArg (frame _) (hraw.eq_of_length_le hlen)) hne
  · obtain ⟨text, raw, htext, rfl, hbody⟩ := unpack_eq_ok h
    unfold readBody at hbody
    obtain ⟨said, hsaid, hbody⟩ := Fallible.bind_eq_ok.mp hbody
    obtain ⟨⟨rest, listed⟩, hpopped, hbody⟩ := Fallible.bind_eq_ok.mp hbody
    obtain ⟨items, hitems, hbody⟩ := Fallible.bind_eq_ok.mp hbody
    obtain ⟨read, hread, hbody⟩ := Fallible.bind_eq_ok.mp hbody
    obtain ⟨rfl, rfl⟩ := Prod.mk.inj (Except.ok.inj hbody)
    obtain ⟨hcovered, hread⟩ := readItems_eq_ok hread
    refine ⟨text, raw, said, listed, items, htext, rfl, hsaid, hpopped, hitems, fun item hitem => ?_,
      fun entry hentry => ?_⟩
    · obtain ⟨wire, offset, length, hcovers⟩ := hcovered item hitem
      exact ⟨wire, offset, length, hcovers, hcovers.length_fits⟩
    · rcases hread entry hentry with hnil | hitem
      · cases hnil
      · exact hitem

/-! ### Two snapshots -/

/-- The bytes of a text of ASCII characters. -/
def ascii (text : String) : Bytes := text.toList.map fun c => UInt8.ofNat c.toNat

/-- JSON on ASCII values, with the one text that is read. -/
def oneText (text : String) (v : PyValue) : JsonCodec SnapshotError where
  dumps v := (PyValue.dumps ⟨true, [','], [':']⟩ v).map fun c => UInt8.ofNat c.toNat
  loads t := if t = ascii text then .ok v else .error (.jsonError "")

theorem loads_oneText (text : String) (v : PyValue) : (oneText text v).loads (ascii text) = .ok v := by
  unfold oneText
  exact if_pos rfl

/-- numpy has at most 64 dimensions. -/
def upTo64 (shape : List Nat) : Bool := shape.length ≤ 64

/-- A scalar. -/
def scalar : SnapshotTensor upTo64 := ⟨"x", ⟨⟨"int32", 4, rfl⟩, [], [1, 2, 3, 4], by decide, by decide⟩, "torch"⟩

/-- The fields of the scalar as they are read, sorted. -/
def scalarFields : List (String × PyValue) :=
  [("dtype", .str "int32"), ("framework", .str "torch"), ("length", .int 4), ("name", .str "x"), ("offset", .int 0),
    ("shape", .list [])]

/-- The header of the scalar and one more key. -/
def scalarText : String :=
  "\x7b\"b\":1,\"tensors\":[\x7b\"dtype\":\"int32\",\"framework\":\"torch\",\"length\":4,\"name\":\"x\"," ++
    "\"offset\":0,\"shape\":[]\x7d]\x7d"

def scalarJson : JsonCodec SnapshotError :=
  oneText scalarText (.dict [("b", .int 1), ("tensors", .list [.dict scalarFields])])

def oneKey : Dict String PyValue := ⟨[("b", .int 1)], by decide⟩

theorem scalar_inverts : scalarJson.Inverts (header [scalar] oneKey) := by
  have htext : scalarJson.dumps (header [scalar] oneKey) = ascii scalarText := by decide +kernel
  have hperm : (fieldsOf 0 scalar).Perm scalarFields := by
    refine (List.perm_ext_iff_of_nodup (List.Nodup.of_map Prod.fst (nodup_fieldsOf 0 scalar))
      (List.Nodup.of_map Prod.fst (show (scalarFields.map Prod.fst).Nodup by decide))).mpr fun entry => ?_
    show entry ∈ [_, _, _, _, _, _] ↔ entry ∈ [_, _, _, _, _, _]
    simp only [List.mem_cons, List.not_mem_nil, or_false]
    tauto
  have hscalar : (PyValue.dict (fieldsOf 0 scalar)).Alike (.dict scalarFields) :=
    PyValue.Alike.dict_of_perm (nodup_fieldsOf 0 scalar)
      (.cons ⟨rfl, .str _⟩ (.cons ⟨rfl, .str _⟩ (.cons ⟨rfl, .list .nil⟩ (.cons ⟨rfl, .int _⟩ (.cons ⟨rfl, .int _⟩
        (.cons ⟨rfl, .str _⟩ .nil)))))) hperm
  refine ⟨.dict [("b", .int 1), ("tensors", .list [.dict scalarFields])],
    (congrArg scalarJson.loads htext).trans (loads_oneText scalarText _), ?_⟩
  have hvalues : List.Forall₂ (fun (e f : String × PyValue) => e.1 = f.1 ∧ e.2.Alike f.2)
      [("b", .int 1), ("tensors", .list [.dict (fieldsOf 0 scalar)])]
      [("b", .int 1), ("tensors", .list [.dict scalarFields])] :=
    .cons ⟨rfl, .int 1⟩ (.cons ⟨rfl, .list (.cons hscalar .nil)⟩ .nil)
  exact PyValue.Alike.dict_of_perm (by decide) hvalues (List.Perm.refl _)

/-- The scalar comes back, no strict prefix of its payload is accepted, and its bytes are where the header says. -/
theorem scalar_contract : ∃ payload, pack scalarJson [scalar] oneKey = .ok payload ∧
    (∃ metadata', unpack upTo64 scalarJson id ⟨id, fun _ => none⟩ payload = .ok (metadata', entriesOf [scalar]) ∧
      PyValue.AlikeDict oneKey metadata') ∧
    (∀ front : Bytes, front <+: payload → front ≠ payload →
      ∃ e, unpack upTo64 scalarJson id ⟨id, fun _ => none⟩ front = .error e) ∧
    ∃ (raw : Bytes) (item : PyValue) (offset length : Int),
      Covers id ⟨id, fun _ => none⟩ raw item scalar.wire offset length := by
  have hpack : pack scalarJson [scalar] oneKey =
      .ok (frame (scalarJson.dumps (header [scalar] oneKey)) (rawParts [scalar])) := by
    unfold pack
    exact if_neg (by decide +kernel)
  obtain ⟨hpacked, hunpacked⟩ := container_contract upTo64 scalarJson id ⟨id, fun _ => none⟩
  obtain ⟨⟨metadata', hunpack, halike⟩, hprefix⟩ := hpacked [scalar] oneKey _ (by decide) rfl scalar_inverts hpack
  obtain ⟨text, raw, said, listed, items, -, -, -, -, -, -, hread⟩ := hunpacked _ _ _ hunpack
  obtain ⟨item, -, offset, length, hcovers⟩ := hread _ (List.mem_cons_self ..)
  exact ⟨_, hpack, ⟨metadata', hunpack, halike⟩, hprefix, raw, item, offset, length, hcovers⟩

/-- A byte behind the last tensor is accepted: no declared length accounts for it. -/
theorem trailing_byte_accepted :
    let J := oneText "\x7b\"tensors\":[]\x7d" (.dict [("tensors", .list [])])
    ∃ payload, pack J ([] : List (SnapshotTensor upTo64)) Dict.empty = .ok payload ∧
      unpack upTo64 J id ⟨id, fun _ => none⟩ payload = .ok (Dict.empty, []) ∧
      unpack upTo64 J id ⟨id, fun _ => none⟩ (payload ++ [0]) = .ok (Dict.empty, []) := by
  intro J
  have htext : J.dumps (header ([] : List (SnapshotTensor upTo64)) Dict.empty) = ascii "\x7b\"tensors\":[]\x7d" := by decide
  have hframe : frame (ascii "\x7b\"tensors\":[]\x7d") [] ++ [0] = frame (ascii "\x7b\"tensors\":[]\x7d") [0] := by
    unfold frame
    rw [List.append_assoc, List.append_assoc, List.append_assoc]
    rfl
  have hbody : ∀ raw, readBody upTo64 J id ⟨id, fun _ => none⟩ (ascii "\x7b\"tensors\":[]\x7d") raw =
      .ok (Dict.empty, []) := fun raw => by
    unfold readBody
    rw [loads_oneText]
    rfl
  refine ⟨frame (ascii "\x7b\"tensors\":[]\x7d") [], ?_, ?_, ?_⟩
  · unfold pack
    rw [htext]
    rfl
  · rw [unpack_frame _ (by decide), hbody]
  · rw [hframe, unpack_frame _ (by decide), hbody]

end SnapshotContainer

end KakeyaEngine
