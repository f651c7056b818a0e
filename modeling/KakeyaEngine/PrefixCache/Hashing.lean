import KakeyaEngine.Capability
import KakeyaEngine.Lib.HashChain
import KakeyaEngine.Lib.Sha256
import Mathlib.Data.List.Basic
import Mathlib.Algebra.Group.Int.Defs

/-!
# Prefix hashing

`compatibilityFingerprint` digests the JSON text of the compatibility tuple, and `chainedBlockHashes` hashes the
fixed-size blocks of a token list, each chained to the one before it: the hash at boundary `i` commits to the
fingerprint, the key and all tokens up to the boundary.

`boundary_inj` is the converse the cache rests on: where the digests that occur do not collide, a hash determines the
compatibility tuple, the key, the boundary and the tokens before it.
-/

namespace KakeyaEngine

/-- The exceptions of the prefix cache, with their messages. -/
inductive CacheError
  | valueError (message : String)
  | keyError (message : String)
  | indexError
  | overflowError (message : String)
deriving DecidableEq

/-! ### The hashes of a token list -/

/-- `str.encode`: the UTF-8 bytes of a text. -/
def utf8 (text : List Char) : Bytes := text.flatMap String.utf8EncodeChar

/-- The text that `compatibility_fingerprint` hashes. -/
def compatibilityText (c : CacheCompatibility) : Bytes := utf8 (Json.obj c.members)

/-- `compatibility_fingerprint`. -/
def compatibilityFingerprint (c : CacheCompatibility) : Bytes := Sha256.sha256 (compatibilityText c)

/-- The four bytes of a token, the lowest first. -/
def le32 (n : Nat) : Bytes :=
  [UInt8.ofNat n, UInt8.ofNat (n / 2 ^ 8), UInt8.ofNat (n / 2 ^ 16), UInt8.ofNat (n / 2 ^ 24)]

/-- `int.to_bytes(4, "little", signed=False)`. -/
def encodeToken (t : Int) : Except CacheError Bytes :=
  if t < 0 then .error (.overflowError "can't convert negative int to unsigned")
  else if 2 ^ 32 ≤ t then .error (.overflowError "int too big to convert")
  else .ok (le32 t.toNat)

/-- The bytes of a block of tokens. -/
def encodeBlock : List Token → Except CacheError Bytes
  | [] => .ok []
  | t :: ts => do
    let bytes ← encodeToken t
    let rest ← encodeBlock ts
    pure (bytes ++ rest)

/-- The bytes of every block. -/
def encodeBlocks : List (List Token) → Except CacheError (List Bytes)
  | [] => .ok []
  | b :: bs => do
    let encoded ← encodeBlock b
    let rest ← encodeBlocks bs
    pure (encoded :: rest)

/-- The blocks of `size` tokens, the last of them possibly shorter. -/
def tokenBlocks (size : Nat) (tokenIds : List Token) : List (List Token) :=
  (List.range ((tokenIds.length + size - 1) / size)).map fun i => (tokenIds.drop (i * size)).take size

/-- The digest of `material`, keyed when there is a key. -/
def keyedDigest (hmacKey material : Bytes) : Bytes :=
  if hmacKey = [] then Sha256.sha256 material else Sha256.hmac hmacKey material

/-- A block as it enters the chain: the key, the fingerprint and the bytes of its tokens. -/
structure ChainBlock where
  hmacKey : Bytes
  fingerprint : Bytes
  encoded : Bytes
deriving DecidableEq

/-- The input of the digest of a block. -/
def ChainBlock.material (previous : Bytes) (b : ChainBlock) : Bytes := b.fingerprint ++ previous ++ b.encoded

/-- The hash of a block, chained to the hash before it. -/
def chainLink (previous : Bytes) (b : ChainBlock) : Bytes := keyedDigest b.hmacKey (b.material previous)

/-- `bytes(32)`. -/
def zeros32 : Bytes := List.replicate 32 0

/-- The chain blocks of a token list. -/
def chainBlocks (c : CacheCompatibility) (hmacKey : Bytes) (encoded : List Bytes) : List ChainBlock :=
  encoded.map (⟨hmacKey, compatibilityFingerprint c, ·⟩)

/-- `chained_block_hashes`. -/
def chainedBlockHashes (tokenIds : List Token) (c : CacheCompatibility) (hmacKey : Bytes) :
    Except CacheError (List Bytes) :=
  if c.blockSizeTokens ≤ 0 then .error (.valueError "block_size_tokens must be > 0")
  else do
    let encoded ← encodeBlocks (tokenBlocks c.blockSizeTokens.toNat tokenIds)
    pure (HashChain.tips chainLink zeros32 (chainBlocks c hmacKey encoded))

/-! ### Encodings are injective -/

theorem utf8_inj {s t : List Char} (h : utf8 s = utf8 t) : s = t := by
  apply String.ofList_inj.1
  rw [← String.toByteArray_inj, String.toByteArray_ofList, String.toByteArray_ofList]
  exact congrArg List.toByteArray h

/-- The compatibility tuple as an object of strings and integers. -/
private def CacheCompatibility.fields (c : CacheCompatibility) : List (String × Json.Scalar) :=
  [("block_size_tokens", .integer c.blockSizeTokens), ("cache_format_version", .string c.cacheFormatVersion),
    ("kv_dtype", .string c.kvDtype), ("layer_geometry_hash", .string c.layerGeometryHash),
    ("model_id", .string c.modelId), ("model_revision", .string c.modelRevision),
    ("quantization", .string c.quantization), ("rope_hash", .string c.ropeHash),
    ("sink_size", .integer c.sinkSize), ("tenant_namespace", .string c.tenantNamespace),
    ("tokenizer_revision", .string c.tokenizerRevision), ("window_size", .integer c.windowSize)]

private theorem members_eq (c : CacheCompatibility) : c.members = Json.scalarMembers c.fields := rfl

private theorem members_sorted (c : CacheCompatibility) : c.members.foldr Json.insertMember [] = c.members := by
  simp [CacheCompatibility.members, Json.insertMember]

/-- The text of the compatibility tuple determines it. -/
theorem compatibilityText_inj {c c' : CacheCompatibility} (h : compatibilityText c = compatibilityText c') :
    c = c' := by
  have ho := utf8_inj h
  have hs := members_sorted c
  have hs' := members_sorted c'
  rw [members_eq] at ho hs hs'
  rw [members_eq] at ho
  have hf := Json.obj_inj (by simp [CacheCompatibility.fields]) (by simp [CacheCompatibility.fields]) hs hs' ho
  simp only [CacheCompatibility.fields, List.cons.injEq, Prod.mk.injEq, true_and,
    Json.Scalar.integer.injEq, Json.Scalar.string.injEq, and_true] at hf
  cases c
  cases c'
  simp_all

private theorem le32_inj {m n : Nat} (hm : m < 2 ^ 32) (hn : n < 2 ^ 32) (h : le32 m = le32 n) : m = n := by
  simp only [le32, List.cons.injEq, and_true] at h
  obtain ⟨h0, h1, h2, h3⟩ := h
  have e0 := congrArg UInt8.toNat h0
  have e1 := congrArg UInt8.toNat h1
  have e2 := congrArg UInt8.toNat h2
  have e3 := congrArg UInt8.toNat h3
  simp only [UInt8.toNat_ofNat'] at e0 e1 e2 e3
  omega

private theorem encodeToken_ok {t : Int} {b : Bytes} (h : encodeToken t = .ok b) :
    0 ≤ t ∧ t < 2 ^ 32 ∧ b = le32 t.toNat := by
  unfold encodeToken at h
  split at h
  · cases h
  · split at h
    · cases h
    · injection h with h
      exact ⟨by omega, by omega, h.symm⟩

theorem encodeBlock_cons {t : Int} {ts : List Token} {b : Bytes} (h : encodeBlock (t :: ts) = .ok b) :
    ∃ b', encodeBlock ts = .ok b' ∧ 0 ≤ t ∧ t < 2 ^ 32 ∧ b = le32 t.toNat ++ b' := by
  unfold encodeBlock at h
  rcases ht : encodeToken t with e | bt
  · rw [ht] at h; cases h
  rcases hb : encodeBlock ts with e | bs
  · rw [ht, hb] at h; cases h
  rw [ht, hb] at h
  obtain ⟨h0, h1, rfl⟩ := encodeToken_ok ht
  injection h with h
  exact ⟨bs, rfl, h0, h1, h.symm⟩

/-- The bytes of a block determine its tokens. -/
theorem encodeBlock_inj {ts us : List Token} {b : Bytes} (ht : encodeBlock ts = .ok b)
    (hu : encodeBlock us = .ok b) : ts = us := by
  induction ts generalizing us b with
  | nil =>
    injection ht with ht
    cases us with
    | nil => rfl
    | cons u us =>
      obtain ⟨b', -, -, -, rfl⟩ := encodeBlock_cons hu
      simp [le32] at ht
  | cons t ts ih =>
    obtain ⟨bt, ht', h0, h1, rfl⟩ := encodeBlock_cons ht
    cases us with
    | nil =>
      injection hu with hu
      simp [le32] at hu
    | cons u us =>
      obtain ⟨bu, hu', h0', h1', he⟩ := encodeBlock_cons hu
      obtain ⟨hw, rfl⟩ := List.append_inj he rfl
      have hn := le32_inj (by omega) (by omega) hw
      have htu : t = u := by
        rw [← Int.toNat_of_nonneg h0, ← Int.toNat_of_nonneg h0', hn]
      rw [ih ht' hu', htu]

private theorem encodeBlocks_cons {b : List Token} {bs : List (List Token)} {es : List Bytes}
    (h : encodeBlocks (b :: bs) = .ok es) :
    ∃ e es', encodeBlock b = .ok e ∧ encodeBlocks bs = .ok es' ∧ es = e :: es' := by
  unfold encodeBlocks at h
  rcases hb : encodeBlock b with x | e
  · rw [hb] at h; cases h
  rcases hbs : encodeBlocks bs with x | es'
  · rw [hb, hbs] at h; cases h
  rw [hb, hbs] at h
  injection h with h
  exact ⟨e, es', rfl, rfl, h.symm⟩

theorem length_encodeBlocks {bs : List (List Token)} {es : List Bytes} (h : encodeBlocks bs = .ok es) :
    es.length = bs.length := by
  induction bs generalizing es with
  | nil => injection h with h; rw [← h]; rfl
  | cons b bs ih =>
    obtain ⟨e, es', -, h', rfl⟩ := encodeBlocks_cons h
    simp [ih h']

theorem encodeBlocks_take {bs : List (List Token)} {es : List Bytes} (h : encodeBlocks bs = .ok es) (n : Nat) :
    encodeBlocks (bs.take n) = .ok (es.take n) := by
  induction bs generalizing es n with
  | nil =>
    injection h with h
    simp [← h, encodeBlocks]
  | cons b bs ih =>
    obtain ⟨e, es', he, hes, rfl⟩ := encodeBlocks_cons h
    cases n with
    | zero => simp [encodeBlocks]
    | succ n =>
      have := ih hes n
      simp only [List.take_succ_cons, encodeBlocks, he, this]
      rfl

/-- Two lists of blocks with the same bytes up to a boundary are the same up to it. -/
theorem encodeBlocks_take_inj {bs cs : List (List Token)} {es fs : List Bytes} {m n : Nat}
    (hb : encodeBlocks bs = .ok es) (hc : encodeBlocks cs = .ok fs) (h : es.take m = fs.take n) :
    bs.take m = cs.take n := by
  induction bs generalizing cs es fs m n with
  | nil =>
    injection hb with hb
    cases cs with
    | nil => simp
    | cons c cs =>
      obtain ⟨f, fs', -, -, rfl⟩ := encodeBlocks_cons hc
      cases n with
      | zero => simp
      | succ n => simp [← hb] at h
  | cons b bs ih =>
    obtain ⟨e, es', he, hes, rfl⟩ := encodeBlocks_cons hb
    cases cs with
    | nil =>
      injection hc with hc
      cases m with
      | zero => simp
      | succ m => simp [← hc] at h
    | cons c cs =>
      obtain ⟨f, fs', hf, hfs, rfl⟩ := encodeBlocks_cons hc
      cases m with
      | zero =>
        cases n with
        | zero => simp
        | succ n => simp at h
      | succ m =>
        cases n with
        | zero => simp at h
        | succ n =>
          simp only [List.take_succ_cons, List.cons.injEq] at h ⊢
          obtain ⟨rfl, h⟩ := h
          exact ⟨encodeBlock_inj he hf, ih hes hfs h⟩

/-! ### The blocks of a token list -/

theorem length_tokenBlocks (size : Nat) (ts : List Token) :
    (tokenBlocks size ts).length = (ts.length + size - 1) / size := by
  simp [tokenBlocks]

private theorem flatten_chunks (size n : Nat) (ts : List Token) :
    ((List.range n).map fun i => (ts.drop (i * size)).take size).flatten = ts.take (n * size) := by
  induction n with
  | zero => simp
  | succ n ih =>
    rw [List.range_succ, List.map_append, List.flatten_append, ih, Nat.succ_mul, List.take_add]
    simp

/-- The blocks up to a boundary hold the tokens up to it. -/
theorem flatten_take_tokenBlocks {size : Nat} (hsize : 0 < size) (ts : List Token) (n : Nat) :
    ((tokenBlocks size ts).take n).flatten = ts.take (n * size) := by
  unfold tokenBlocks
  rw [← List.map_take, List.take_range, flatten_chunks]
  rcases Nat.le_total n ((ts.length + size - 1) / size) with h | h
  · rw [Nat.min_eq_left h]
  · -- past the last block both sides are the whole list
    have hm := Nat.div_add_mod (ts.length + size - 1) size
    have hlt := Nat.mod_lt (ts.length + size - 1) hsize
    have hc : ts.length ≤ (ts.length + size - 1) / size * size := by
      rw [Nat.mul_comm]; omega
    have hn : (ts.length + size - 1) / size * size ≤ n * size := Nat.mul_le_mul_right size h
    rw [Nat.min_eq_right h, List.take_of_length_le hc, List.take_of_length_le (Nat.le_trans hc hn)]

private theorem length_blocks_take {size : Nat} (hsize : 0 < size) (len n : Nat) :
    min n ((len + size - 1) / size) = (min (n * size) len + size - 1) / size := by
  rcases Nat.le_total (n * size) len with h | h
  · have h1 : n ≤ (len + size - 1) / size := (Nat.le_div_iff_mul_le hsize).2 (by omega)
    have h2 : (n * size + size - 1) / size = n := by
      apply Nat.div_eq_of_lt_le
      · omega
      · rw [Nat.succ_mul]
        omega
    rw [Nat.min_eq_left h1, Nat.min_eq_left h, h2]
  · have h1 : (len + size - 1) / size ≤ n := by
      apply Nat.le_of_lt_succ
      rw [Nat.div_lt_iff_lt_mul hsize, Nat.succ_mul]
      omega
    rw [Nat.min_eq_right h1, Nat.min_eq_right h]

/-- The blocks up to a boundary are the blocks of the tokens up to it. -/
theorem take_tokenBlocks {size : Nat} (hsize : 0 < size) (ts : List Token) (n : Nat) :
    (tokenBlocks size ts).take n = tokenBlocks size (ts.take (n * size)) := by
  unfold tokenBlocks
  rw [← List.map_take, List.take_range, List.length_take, ← length_blocks_take hsize]
  apply List.map_congr_left
  intro i hi
  have hin : i + 1 ≤ n := by
    have := List.mem_range.1 hi
    omega
  -- block `i` ends before the boundary
  have hend : i * size + size ≤ n * size := by
    rw [← Nat.succ_mul]
    exact Nat.mul_le_mul_right size hin
  rw [List.drop_take, List.take_take, Nat.min_eq_left (by omega)]

/-! ### A hash determines what it was computed from -/

/-- Everything that is digested for the hashes of a token list, with the keys. -/
def hashInputs (tokenIds : List Token) (c : CacheCompatibility) (hmacKey : Bytes) : List (Bytes × Bytes) :=
  ([], compatibilityText c) ::
    match encodeBlocks (tokenBlocks c.blockSizeTokens.toNat tokenIds) with
    | .error _ => []
    | .ok encoded =>
      (HashChain.links chainLink zeros32 (chainBlocks c hmacKey encoded)).map fun p =>
        (p.2.hmacKey, p.2.material p.1)

/-- The digests of a set of inputs do not collide, and none of them is all zero. -/
def NoCollision (S : Bytes × Bytes → Prop) : Prop :=
  (∀ p q, S p → S q → keyedDigest p.1 p.2 = keyedDigest q.1 q.2 → p = q) ∧
    ∀ p, S p → keyedDigest p.1 p.2 ≠ zeros32

theorem length_keyedDigest (key material : Bytes) : (keyedDigest key material).length = 32 := by
  unfold keyedDigest
  split
  · exact Sha256.length_sha256 material
  · exact Sha256.length_hmac key material

theorem chainedBlockHashes_ok {ts : List Token} {c : CacheCompatibility} {key : Bytes} {hashes : List Bytes}
    (h : chainedBlockHashes ts c key = .ok hashes) :
    0 < c.blockSizeTokens.toNat ∧ ∃ encoded, encodeBlocks (tokenBlocks c.blockSizeTokens.toNat ts) = .ok encoded ∧
      hashes = HashChain.tips chainLink zeros32 (chainBlocks c key encoded) := by
  unfold chainedBlockHashes at h
  split at h
  · cases h
  · rename_i hs
    refine ⟨by omega, ?_⟩
    rcases he : encodeBlocks (tokenBlocks c.blockSizeTokens.toNat ts) with e | encoded
    · rw [he] at h; cases h
    · rw [he] at h
      injection h with h
      exact ⟨encoded, rfl, h.symm⟩

private theorem links_lengths {c : CacheCompatibility} {key d : Bytes} {encoded : List Bytes}
    (hd : d.length = 32) {p : Bytes × ChainBlock}
    (hp : p ∈ HashChain.links chainLink d (chainBlocks c key encoded)) :
    p.1.length = 32 ∧ p.2.fingerprint.length = 32 := by
  induction encoded generalizing d with
  | nil => simp [chainBlocks, HashChain.links] at hp
  | cons e es ih =>
    simp only [chainBlocks, List.map_cons, HashChain.links, List.mem_cons] at hp
    rcases hp with rfl | hp
    · exact ⟨hd, Sha256.length_sha256 _⟩
    · exact ih (length_keyedDigest _ _) hp

/-- The links whose inputs are in `S` and whose parts have the length of a digest. -/
private def LinkOf (S : Bytes × Bytes → Prop) (p : Bytes × ChainBlock) : Prop :=
  S (p.2.hmacKey, p.2.material p.1) ∧ p.1.length = 32 ∧ p.2.fingerprint.length = 32

private theorem collisionFree_of_noCollision {S : Bytes × Bytes → Prop} (hS : NoCollision S) :
    HashChain.CollisionFree chainLink zeros32 (LinkOf S) := by
  constructor
  · rintro ⟨d, b⟩ ⟨d', b'⟩ ⟨hs, hd, hb⟩ ⟨hs', hd', hb'⟩ h
    dsimp only at hs hd hb hs' hd' hb' h
    have e := hS.1 _ _ hs hs' h
    obtain ⟨hk, hm⟩ := Prod.mk.inj e
    -- fingerprint and previous hash have fixed lengths, so the material splits in one way
    unfold ChainBlock.material at hm
    obtain ⟨hm, he⟩ := List.append_inj hm (by simp only [List.length_append]; omega)
    obtain ⟨hf, hprev⟩ := List.append_inj hm (by omega)
    cases b
    cases b'
    simp_all
  · rintro ⟨d, b⟩ ⟨hs, -, -⟩
    exact hS.2 _ hs

private theorem linkOf_links {S : Bytes × Bytes → Prop} {ts : List Token} {c : CacheCompatibility} {key : Bytes}
    {encoded : List Bytes} (hin : ∀ p ∈ hashInputs ts c key, S p)
    (he : encodeBlocks (tokenBlocks c.blockSizeTokens.toNat ts) = .ok encoded) {n : Nat} :
    ∀ p ∈ HashChain.links chainLink zeros32 ((chainBlocks c key encoded).take n), LinkOf S p := by
  intro p hp
  have hp' := HashChain.mem_links_take chainLink hp
  refine ⟨?_, links_lengths (by rfl) hp'⟩
  apply hin
  unfold hashInputs
  rw [he]
  exact List.mem_cons_of_mem _ (List.mem_map.2 ⟨p, hp', rfl⟩)

/-- Where no digest collides, a hash determines the compatibility tuple, the key, the boundary and the tokens before
it. -/
theorem boundary_inj {S : Bytes × Bytes → Prop} (hS : NoCollision S) {ts us : List Token}
    {c c' : CacheCompatibility} {key key' : Bytes} {hs hs' : List Bytes} {i j : Nat} {x : Bytes}
    (hts : ∀ p ∈ hashInputs ts c key, S p) (hus : ∀ p ∈ hashInputs us c' key', S p)
    (h : chainedBlockHashes ts c key = .ok hs) (h' : chainedBlockHashes us c' key' = .ok hs')
    (hi : hs[i]? = some x) (hj : hs'[j]? = some x) :
    c = c' ∧ key = key' ∧ i = j ∧
      ts.take ((i + 1) * c.blockSizeTokens.toNat) = us.take ((i + 1) * c.blockSizeTokens.toNat) := by
  obtain ⟨hpos, es, hes, rfl⟩ := chainedBlockHashes_ok h
  obtain ⟨-, fs, hfs, rfl⟩ := chainedBlockHashes_ok h'
  rw [HashChain.getElem?_tips] at hi hj
  split at hi <;> [rename_i hil; cases hi]
  split at hj <;> [rename_i hjl; cases hj]
  have htip := Option.some.inj (hi.trans hj.symm)
  have hbs := HashChain.tip_inj (collisionFree_of_noCollision hS) (linkOf_links hts hes) (linkOf_links hus hfs) htip
  have hlen := congrArg List.length hbs
  simp only [List.length_take] at hlen
  obtain rfl : i = j := by omega
  have henc : es.take (i + 1) = fs.take (i + 1) := by
    have := congrArg (List.map ChainBlock.encoded) hbs
    simpa [chainBlocks, List.map_take, Function.comp_def] using this
  have hhead : key = key' ∧ compatibilityFingerprint c = compatibilityFingerprint c' := by
    cases es with
    | nil => simp [chainBlocks] at hil
    | cons e es =>
      cases fs with
      | nil => simp [chainBlocks] at hjl
      | cons f fs =>
        simp only [chainBlocks, List.map_cons, List.take_succ_cons, List.cons.injEq, ChainBlock.mk.injEq] at hbs
        exact ⟨hbs.1.1, hbs.1.2.1⟩
  obtain ⟨rfl, hfp⟩ := hhead
  have htext := hS.1 ([], compatibilityText c) ([], compatibilityText c') (hts _ (by simp [hashInputs]))
    (hus _ (by simp [hashInputs])) hfp
  obtain rfl := compatibilityText_inj (Prod.mk.inj htext).2
  refine ⟨rfl, rfl, rfl, ?_⟩
  have hblocks := encodeBlocks_take_inj hes hfs henc
  rw [← flatten_take_tokenBlocks hpos ts, ← flatten_take_tokenBlocks hpos us, hblocks]

/-- The hash at a boundary depends on the tokens before it only. -/
theorem hash_congr {ts us : List Token} {c : CacheCompatibility} {key : Bytes} {hs hs' : List Bytes} {i : Nat}
    {x : Bytes} (h : chainedBlockHashes ts c key = .ok hs) (h' : chainedBlockHashes us c key = .ok hs')
    (htake : ts.take ((i + 1) * c.blockSizeTokens.toNat) = us.take ((i + 1) * c.blockSizeTokens.toNat))
    (hi : hs[i]? = some x) : hs'[i]? = some x := by
  obtain ⟨hpos, es, hes, rfl⟩ := chainedBlockHashes_ok h
  obtain ⟨-, fs, hfs, rfl⟩ := chainedBlockHashes_ok h'
  have henc : es.take (i + 1) = fs.take (i + 1) := by
    have h1 := encodeBlocks_take hes (i + 1)
    have h2 := encodeBlocks_take hfs (i + 1)
    rw [take_tokenBlocks hpos] at h1 h2
    rw [htake, h2] at h1
    exact (Except.ok.inj h1).symm
  have hchain : (chainBlocks c key es).take (i + 1) = (chainBlocks c key fs).take (i + 1) := by
    simp only [chainBlocks, ← List.map_take, henc]
  rw [HashChain.getElem?_tips] at hi ⊢
  split at hi <;> [rename_i hil; cases hi]
  have hlen := congrArg List.length hchain
  simp only [List.length_take] at hlen
  rw [if_pos (by omega), ← hchain]
  exact hi

/-- The hashes up to a boundary are the hashes of the tokens before it. -/
theorem chainedBlockHashes_take {ts : List Token} {c : CacheCompatibility} {key : Bytes} {hashes : List Bytes}
    (h : chainedBlockHashes ts c key = .ok hashes) (n : Nat) :
    chainedBlockHashes (ts.take (n * c.blockSizeTokens.toNat)) c key = .ok (hashes.take n) := by
  obtain ⟨hpos, encoded, he, rfl⟩ := chainedBlockHashes_ok h
  have htake := encodeBlocks_take he n
  rw [take_tokenBlocks hpos] at htake
  unfold chainedBlockHashes
  rw [if_neg (by omega), htake, HashChain.take_tips]
  simp only [chainBlocks, ← List.map_take]
  rfl

/-! ### When a token list can be hashed -/

private theorem encodeBlock_returns {ts : List Token} (h : ∀ t ∈ ts, (0 : Int) ≤ t ∧ t < 2 ^ 32) :
    ∃ b, encodeBlock ts = .ok b := by
  induction ts with
  | nil => exact ⟨[], rfl⟩
  | cons t ts ih =>
    obtain ⟨h0, h1⟩ := h t (by simp)
    obtain ⟨b, hb⟩ := ih fun u hu => h u (by simp [hu])
    have ht : encodeToken t = .ok (le32 t.toNat) := by
      unfold encodeToken
      rw [if_neg (Int.not_lt.2 h0), if_neg (Int.not_le.2 h1)]
    exact ⟨le32 t.toNat ++ b, by unfold encodeBlock; rw [ht, hb]; rfl⟩

private theorem encodeBlock_fits {ts : List Token} {b : Bytes} (h : encodeBlock ts = .ok b) :
    ∀ t ∈ ts, (0 : Int) ≤ t ∧ t < 2 ^ 32 := by
  induction ts generalizing b with
  | nil => simp
  | cons u us ih =>
    obtain ⟨b', hb', h0, h1, -⟩ := encodeBlock_cons h
    intro t ht
    rcases List.mem_cons.1 ht with rfl | ht
    · exact ⟨h0, h1⟩
    · exact ih hb' t ht

private theorem encodeBlocks_returns_iff (bs : List (List Token)) :
    (∃ es, encodeBlocks bs = .ok es) ↔ ∀ t ∈ bs.flatten, (0 : Int) ≤ t ∧ t < 2 ^ 32 := by
  induction bs with
  | nil => exact ⟨fun _ => by simp, fun _ => ⟨[], rfl⟩⟩
  | cons b bs ih =>
    constructor
    · rintro ⟨es, he⟩ t ht
      obtain ⟨e, es', hb, hbs, rfl⟩ := encodeBlocks_cons he
      rw [List.flatten_cons, List.mem_append] at ht
      rcases ht with ht | ht
      · exact encodeBlock_fits hb t ht
      · exact ih.1 ⟨es', hbs⟩ t ht
    · intro h
      simp only [List.flatten_cons, List.mem_append] at h
      obtain ⟨e, he⟩ := encodeBlock_returns fun t ht => h t (Or.inl ht)
      obtain ⟨es, hes⟩ := ih.2 fun t ht => h t (Or.inr ht)
      exact ⟨e :: es, by unfold encodeBlocks; rw [he, hes]; rfl⟩

/-- The blocks hold all the tokens. -/
theorem flatten_tokenBlocks {size : Nat} (hsize : 0 < size) (ts : List Token) :
    (tokenBlocks size ts).flatten = ts := by
  have h := flatten_take_tokenBlocks hsize ts ((ts.length + size - 1) / size)
  rw [List.take_of_length_le (Nat.le_of_eq (length_tokenBlocks size ts))] at h
  rw [h, List.take_of_length_le]
  have := Nat.lt_mul_div_succ (ts.length + size - 1) hsize
  rw [Nat.mul_comm]
  rw [Nat.mul_succ] at this
  omega

/-- `chained_block_hashes` returns exactly when blocks have a size and every token fits four bytes. -/
theorem chainedBlockHashes_returns_iff (ts : List Token) (c : CacheCompatibility) (key : Bytes) :
    (∃ hashes, chainedBlockHashes ts c key = .ok hashes) ↔
      0 < c.blockSizeTokens ∧ ∀ t ∈ ts, (0 : Int) ≤ t ∧ t < 2 ^ 32 := by
  constructor
  · rintro ⟨hashes, h⟩
    obtain ⟨hpos, encoded, he, -⟩ := chainedBlockHashes_ok h
    have hall := (encodeBlocks_returns_iff _).1 ⟨encoded, he⟩
    rw [flatten_tokenBlocks hpos] at hall
    exact ⟨by omega, hall⟩
  · rintro ⟨hpos, hall⟩
    have hsize : 0 < c.blockSizeTokens.toNat := by omega
    rw [← flatten_tokenBlocks hsize ts] at hall
    obtain ⟨encoded, he⟩ := (encodeBlocks_returns_iff _).2 hall
    refine ⟨HashChain.tips chainLink zeros32 (chainBlocks c key encoded), ?_⟩
    unfold chainedBlockHashes
    rw [if_neg (by omega), he]
    rfl

/-- There is one hash for every block. -/
theorem length_chainedBlockHashes {ts : List Token} {c : CacheCompatibility} {key : Bytes} {hashes : List Bytes}
    (h : chainedBlockHashes ts c key = .ok hashes) :
    hashes.length = (ts.length + c.blockSizeTokens.toNat - 1) / c.blockSizeTokens.toNat := by
  obtain ⟨-, encoded, he, rfl⟩ := chainedBlockHashes_ok h
  rw [HashChain.length_tips, chainBlocks, List.length_map, length_encodeBlocks he, length_tokenBlocks]

/-- Every hash has the length of a digest. -/
theorem length_of_mem_chainedBlockHashes {ts : List Token} {c : CacheCompatibility} {key h : Bytes} {hashes : List Bytes}
    (hh : chainedBlockHashes ts c key = .ok hashes) (hm : h ∈ hashes) : h.length = 32 := by
  obtain ⟨-, encoded, -, rfl⟩ := chainedBlockHashes_ok hh
  obtain ⟨i, hi⟩ := List.mem_iff_getElem?.1 hm
  rw [HashChain.getElem?_tips] at hi
  split at hi
  · rename_i hlt
    obtain rfl := Option.some.inj hi
    rw [List.take_succ_eq_append_getElem hlt, HashChain.tip_concat]
    exact length_keyedDigest _ _
  · cases hi

end KakeyaEngine
