import KakeyaEngine.Auth.Requests
import KakeyaEngine.Lib.Regex

/-!
# Authentication of the prefill requests

Every request of the prefill services carries metadata that a holder of the fleet's pre-shared key has signed:
`signedMetadata` makes it and `verifyMetadata` checks it.  The MAC covers the tenant, the node, the timestamp and the
digest of the serialized request.

What a verification accepts is said in terms of the signings that holders of keys have made (`verifyMetadata_iff`): the
metadata was signed for the same bytes at that timestamp, by a holder whose tenant and node read the same when they are
joined.  The type of the message is not covered, so bytes that two calls share are accepted for either of them.
-/

namespace KakeyaEngine

namespace Auth

/-! ### Texts -/

/-- What the Unicode database says about texts and characters beyond ASCII. -/
structure Unicode where
  lower : List Char → List Char
  decimal : Char → Option Nat

def isAscii (c : Char) : Bool := decide (c.toNat < 128)

/-- `str.lower`. -/
def lower (u : Unicode) (text : String) : List Char :=
  if text.toList.all isAscii then text.toList.map Char.toLower else u.lower text.toList

/-- The value of a decimal digit. -/
def digitValue (u : Unicode) (c : Char) : Option Nat :=
  if c.isDigit then some (c.toNat - '0'.toNat) else if isAscii c then none else u.decimal c

/-- The digits that follow the first one.  A single underscore may stand before a digit. -/
def moreDigits (u : Unicode) : Bool → Nat → List Char → Option Nat
  | underscore, n, [] => if underscore then none else some n
  | underscore, n, c :: rest =>
    if c = '_' then if underscore then none else moreDigits u true n rest
    else (digitValue u c).bind fun d => moreDigits u false (10 * n + d) rest

def parseNat (u : Unicode) : List Char → Option Nat
  | [] => none
  | c :: rest => (digitValue u c).bind fun d => moreDigits u false d rest

/-- `int(text)`. -/
def parseInt (u : Unicode) (text : String) : Option Int :=
  match ((text.toList.dropWhile Regex.isSpace).reverse.dropWhile Regex.isSpace).reverse with
  | '+' :: rest => (parseNat u rest).map Int.ofNat
  | '-' :: rest => (parseNat u rest).map fun n : Nat => -(n : Int)
  | rest => (parseNat u rest).map Int.ofNat

/-- `str(n)`. -/
def decimal (n : Int) : String := String.ofList (Json.int n)

/-- `bytes.hex`. -/
def hex (bytes : Bytes) : String :=
  String.ofList (bytes.flatMap fun b => [Nat.digitChar (b.toNat / 16), Nat.digitChar (b.toNat % 16)])

/-! ### Signing -/

def authTenant : String := "x-kakeya-tenant-id"

def authNode : String := "x-kakeya-node-id"

def authTs : String := "x-kakeya-auth-ts"

def authMac : String := "x-kakeya-auth-mac"

/-- `FleetAuthConfig`. -/
structure FleetAuthConfig where
  psk : Bytes
  tenantId : String
  nodeId : String
  maxClockSkew : Rat
  psk_long : 16 ≤ psk.length
  tenant_ne : tenantId ≠ ""
  node_ne : nodeId ≠ ""
  skew_pos : 0 < maxClockSkew

/-- What is under the MAC: tenant, node, timestamp and the digest of the body, joined by a zero byte. -/
def macPayload (request : RequestMessage) (tenant node timestamp : String) : Bytes :=
  utf8 tenant.toList ++ [0] ++ utf8 node.toList ++ [0] ++ utf8 timestamp.toList ++ [0] ++
    Sha256.sha256 request.requestBytes

/-- `_mac`. -/
def mac (request : RequestMessage) (psk : Bytes) (tenant node timestamp : String) : String :=
  hex (Sha256.hmac psk (macPayload request tenant node timestamp))

/-- `int(now)`. -/
def truncate (now : Rat) : Int := if 0 ≤ now then now.floor else now.ceil

/-- `signed_metadata`. -/
def signedMetadata (request : RequestMessage) (config : FleetAuthConfig) (now : Rat) : List (String × String) :=
  let timestamp := decimal (truncate now)
  [(authTenant, config.tenantId), (authNode, config.nodeId), (authTs, timestamp),
    (authMac, mac request config.psk config.tenantId config.nodeId timestamp)]

/-! ### Verification -/

/-- `PrefillAuthError`, and the `TypeError` of `compare_digest`. -/
inductive AuthError
  | prefillAuthError (message : String)
  | typeError (message : String)
deriving DecidableEq

/-- `values.get(name, "")`: of several keys that are the same in lower case, the last one counts. -/
def field (u : Unicode) (metadata : List (String × String)) (name : String) : String :=
  (((metadata.filter fun p => decide (lower u p.1 = name.toList)).getLast?).map Prod.snd).getD ""

/-- `abs(current - ts)`. -/
def age (now : Rat) (ts : Int) : Rat := if 0 ≤ now - ts then now - ts else -(now - ts)

/-- `verify_metadata`. -/
def verifyMetadata (u : Unicode) (metadata : List (String × String)) (request : RequestMessage)
    (config : FleetAuthConfig) (now : Rat) : Except AuthError (String × String) :=
  let tenant := field u metadata authTenant
  let node := field u metadata authNode
  let timestamp := field u metadata authTs
  let supplied := field u metadata authMac
  if tenant ≠ config.tenantId then .error (.prefillAuthError "tenant mismatch")
  else if node = "" ∨ timestamp = "" ∨ supplied = "" then
    .error (.prefillAuthError "missing prefill authentication metadata")
  else
    match parseInt u timestamp with
    | none => .error (.prefillAuthError "invalid authentication timestamp")
    | some ts =>
      if config.maxClockSkew < age now ts then
        .error (.prefillAuthError "authentication timestamp outside replay window")
      else if ¬ supplied.toList.all isAscii then
        .error (.typeError "comparing strings with non-ASCII characters is not supported")
      else if supplied ≠ mac request config.psk tenant node timestamp then
        .error (.prefillAuthError "invalid prefill authentication MAC")
      else .ok (tenant, node)

/-! ### Facts about texts -/

private theorem mem_dropWhile {p : Char → Bool} {c : Char} (hc : p c = false) {l : List Char} (h : c ∈ l) :
    c ∈ l.dropWhile p := by
  induction l with
  | nil => cases h
  | cons x l ih =>
    by_cases hx : p x = true
    · rw [List.dropWhile_cons_of_pos hx]
      rcases List.mem_cons.1 h with rfl | h
      · rw [hc] at hx
        cases hx
      · exact ih h
    · rwa [List.dropWhile_cons_of_neg hx]

private theorem digitValue_nul (u : Unicode) : digitValue u '\x00' = none := rfl

private theorem moreDigits_nul (u : Unicode) {l : List Char} (h : '\x00' ∈ l) (underscore : Bool) (n : Nat) :
    moreDigits u underscore n l = none := by
  induction l generalizing underscore n with
  | nil => cases h
  | cons c rest ih =>
    unfold moreDigits
    rcases List.mem_cons.1 h with rfl | h
    · rw [if_neg (by decide), digitValue_nul]
      rfl
    · split
      · split
        · rfl
        · exact ih h true n
      · cases digitValue u c with
        | none => rfl
        | some d => exact ih h false _

private theorem parseNat_nul (u : Unicode) {l : List Char} (h : '\x00' ∈ l) : parseNat u l = none := by
  cases l with
  | nil => rfl
  | cons c rest =>
    unfold parseNat
    dsimp only
    rcases List.mem_cons.1 h with rfl | h
    · rw [digitValue_nul]
      rfl
    · cases digitValue u c with
      | none => rfl
      | some d => exact moreDigits_nul u h false d

/-- A text with a zero character is no integer. -/
theorem parseInt_nul (u : Unicode) {text : String} (h : '\x00' ∈ text.toList) : parseInt u text = none := by
  have hkept : '\x00' ∈ ((text.toList.dropWhile Regex.isSpace).reverse.dropWhile Regex.isSpace).reverse := by
    rw [List.mem_reverse]
    apply mem_dropWhile rfl
    rw [List.mem_reverse]
    exact mem_dropWhile rfl h
  unfold parseInt
  split
  · rename_i rest heq
    rw [heq] at hkept
    rw [parseNat_nul u ((List.mem_cons.1 hkept).resolve_left (by decide))]
    rfl
  · rename_i rest heq
    rw [heq] at hkept
    rw [parseNat_nul u ((List.mem_cons.1 hkept).resolve_left (by decide))]
    rfl
  · rw [parseNat_nul u hkept]
    rfl

private theorem digitValue_digit (u : Unicode) {c : Char} (h : c.isDigit = true) :
    digitValue u c = some (c.toNat - '0'.toNat) := if_pos h

private theorem moreDigits_digits (u : Unicode) {l : List Char} (h : ∀ c ∈ l, c.isDigit = true) (n : Nat) :
    moreDigits u false n l = some (Nat.ofDigitChars 10 l n) := by
  induction l generalizing n with
  | nil => rfl
  | cons c rest ih =>
    have hc := h c (by simp)
    unfold moreDigits
    rw [if_neg (by rintro rfl; cases hc), digitValue_digit u hc, Nat.ofDigitChars_cons]
    exact ih (fun x hx => h x (by simp [hx])) _

private theorem parseNat_digits (u : Unicode) (n : Nat) : parseNat u (Json.nat n) = some n := by
  have hdigits : ∀ c ∈ Json.nat n, c.isDigit = true := fun c hc => Nat.isDigit_of_mem_toDigits (by decide) (by decide) hc
  have hvalue : Nat.ofDigitChars 10 (Json.nat n) 0 = n := Nat.ofDigitChars_ten_toDigits
  cases hl : Json.nat n with
  | nil => exact absurd hl Nat.toDigits_ne_nil
  | cons c rest =>
    rw [hl] at hdigits hvalue
    unfold parseNat
    dsimp only
    rw [digitValue_digit u (hdigits c (by simp))]
    show moreDigits u false _ rest = _
    rw [moreDigits_digits u (fun x hx => hdigits x (by simp [hx]))]
    rw [Nat.ofDigitChars_cons, Nat.mul_zero, Nat.zero_add] at hvalue
    rw [hvalue]

private theorem dropWhile_none {p : Char → Bool} {l : List Char} (h : ∀ c ∈ l, p c = false) : l.dropWhile p = l := by
  cases l with
  | nil => rfl
  | cons c l => exact List.dropWhile_cons_of_neg (by rw [h c (by simp)]; simp)

private theorem not_space_of_digit {c : Char} (h : c.isDigit = true) : Regex.isSpace c = false := by
  simp only [Char.isDigit, Bool.and_eq_true, decide_eq_true_eq] at h
  have h1 : 48 ≤ c.toNat := h.1
  have h2 : c.toNat ≤ 57 := h.2
  simp only [Regex.isSpace, Bool.or_eq_false_iff, Bool.and_eq_false_iff, decide_eq_false_iff_not, beq_eq_false_iff_ne]
  omega

/-- `int(str(n))`. -/
theorem parseInt_decimal (u : Unicode) (n : Int) : parseInt u (decimal n) = some n := by
  have hdigits : ∀ c ∈ Json.nat n.natAbs, c.isDigit = true :=
    fun c hc => Nat.isDigit_of_mem_toDigits (by decide) (by decide) hc
  have hspace : ∀ c ∈ Json.int n, Regex.isSpace c = false := by
    intro c hc
    unfold Json.int at hc
    split at hc
    · rcases List.mem_cons.1 hc with rfl | hc
      · rfl
      · exact not_space_of_digit (hdigits c hc)
    · exact not_space_of_digit (hdigits c hc)
  unfold parseInt decimal
  rw [String.toList_ofList, dropWhile_none hspace, dropWhile_none (fun c hc => hspace c (List.mem_reverse.1 hc)),
    List.reverse_reverse]
  unfold Json.int
  by_cases hneg : n < 0
  · rw [if_pos hneg]
    show (parseNat u (Json.nat n.natAbs)).map (fun k : Nat => -(k : Int)) = some n
    rw [parseNat_digits, Option.map_some, Option.some.injEq]
    omega
  · rw [if_neg hneg]
    split
    · rename_i rest heq
      have := hdigits '+' (by rw [heq]; simp)
      cases this
    · rename_i rest heq
      have := hdigits '-' (by rw [heq]; simp)
      cases this
    · rw [parseNat_digits, Option.map_some, Option.some.injEq, Int.ofNat_eq_natCast]
      omega

/-! ### Facts about bytes -/

private theorem eq_nul_of_zero_mem {c : Char} (h : (0 : UInt8) ∈ String.utf8EncodeChar c) : c = '\x00' := by
  have hbyte : ∀ {n : Nat}, (0 : UInt8) = UInt8.ofNat n → n % 256 = 0 := by
    intro n hn
    have := congrArg UInt8.toNat hn
    rw [UInt8.toNat_ofNat'] at this
    exact this.symm
  unfold String.utf8EncodeChar at h
  dsimp only at h
  split at h
  · -- one byte holds the code point
    rename_i hle
    have hz := hbyte (List.mem_singleton.1 h)
    have hval : c.val.toNat = 0 := by omega
    exact Char.ext (UInt32.toNat_inj.1 hval)
  · -- in a longer encoding every byte is at least 128
    exfalso
    split at h
    · simp only [List.mem_cons, List.not_mem_nil, or_false] at h
      rcases h with h | h
      · have := hbyte h
        omega
      · have := hbyte h
        omega
    · split at h
      · simp only [List.mem_cons, List.not_mem_nil, or_false] at h
        rcases h with h | h | h
        · have := hbyte h
          omega
        · have := hbyte h
          omega
        · have := hbyte h
          omega
      · simp only [List.mem_cons, List.not_mem_nil, or_false] at h
        rcases h with h | h | h | h
        · have := hbyte h
          omega
        · have := hbyte h
          omega
        · have := hbyte h
          omega
        · have := hbyte h
          omega

/-- Only the zero character is encoded with a zero byte. -/
theorem nul_of_zero_mem_utf8 {l : List Char} (h : (0 : UInt8) ∈ utf8 l) : '\x00' ∈ l := by
  obtain ⟨c, hc, h0⟩ := List.mem_flatMap.1 h
  rwa [eq_nul_of_zero_mem h0] at hc

private theorem digitChar_inj : ∀ d < 16, ∀ e < 16, Nat.digitChar d = Nat.digitChar e → d = e := by decide

private theorem digitChar_ascii : ∀ d < 16, isAscii (Nat.digitChar d) = true := by decide

/-- The hexadecimal text determines the bytes. -/
theorem hex_inj {a b : Bytes} (h : hex a = hex b) : a = b := by
  have hlist := String.ofList_inj.1 h
  clear h
  induction a generalizing b with
  | nil =>
    cases b with
    | nil => rfl
    | cons y b => simp at hlist
  | cons x a ih =>
    cases b with
    | nil => simp at hlist
    | cons y b =>
      simp only [List.flatMap_cons, List.cons_append, List.nil_append, List.cons.injEq] at hlist
      obtain ⟨hhigh, hlow, hrest⟩ := hlist
      have hx := x.toNat_lt
      have hy := y.toNat_lt
      have h1 := digitChar_inj _ (by omega) _ (by omega) hhigh
      have h2 := digitChar_inj _ (by omega) _ (by omega) hlow
      rw [ih hrest, UInt8.toNat_inj.1 (show x.toNat = y.toNat by omega)]

theorem hex_ascii (a : Bytes) : (hex a).toList.all isAscii = true := by
  unfold hex
  rw [String.toList_ofList, List.all_eq_true]
  intro c hc
  obtain ⟨x, -, hx⟩ := List.mem_flatMap.1 hc
  have hlt := x.toNat_lt
  simp only [List.mem_cons, List.not_mem_nil, or_false] at hx
  rcases hx with rfl | rfl
  · exact digitChar_ascii _ (by omega)
  · exact digitChar_ascii _ (by omega)

/-! ### What the MAC covers -/

/-- A signature that a holder of a key has made. -/
structure Signing where
  request : RequestMessage
  config : FleetAuthConfig
  now : Rat

namespace Signing

/-- The time that is signed. -/
def timestamp (s : Signing) : Int := truncate s.now

/-- The metadata that is sent along. -/
def metadata (s : Signing) : List (String × String) := signedMetadata s.request s.config s.now

/-- What was signed. -/
def payload (s : Signing) : Bytes :=
  macPayload s.request s.config.tenantId s.config.nodeId (decimal s.timestamp)

/-- The signature. -/
def signature (s : Signing) : String := hex (Sha256.hmac s.config.psk s.payload)

end Signing

/-- Tenant and node as they stand in the payload. -/
def caller (tenant node : String) : List Char := tenant.toList ++ '\x00' :: node.toList

/-- A list is split at the first separator in one way. -/
private theorem split_first {α : Type} {z : α} {a b x y : List α} (ha : z ∉ a) (hb : z ∉ b)
    (h : a ++ z :: x = b ++ z :: y) : a = b ∧ x = y := by
  induction a generalizing b with
  | nil =>
    cases b with
    | nil => exact ⟨rfl, (List.cons.inj h).2⟩
    | cons c b =>
      obtain ⟨rfl, -⟩ := List.cons.inj h
      exact absurd List.mem_cons_self hb
  | cons c a ih =>
    cases b with
    | nil =>
      obtain ⟨rfl, -⟩ := List.cons.inj h
      exact absurd List.mem_cons_self ha
    | cons d b =>
      obtain ⟨rfl, hrest⟩ := List.cons.inj h
      obtain ⟨rfl, rfl⟩ := ih (fun hm => ha (List.mem_cons_of_mem _ hm)) (fun hm => hb (List.mem_cons_of_mem _ hm)) hrest
      exact ⟨rfl, rfl⟩

/-- And at the last one. -/
private theorem split_last {α : Type} {z : α} {a b x y : List α} (hx : z ∉ x) (hy : z ∉ y)
    (h : a ++ z :: x = b ++ z :: y) : a = b ∧ x = y := by
  have hrev := congrArg List.reverse h
  rw [List.reverse_append, List.reverse_append, List.reverse_cons, List.reverse_cons, List.append_assoc,
    List.append_assoc] at hrev
  obtain ⟨hxy, hab⟩ := split_first (fun hm => hx (List.mem_reverse.1 hm)) (fun hm => hy (List.mem_reverse.1 hm)) hrev
  exact ⟨List.reverse_inj.1 hab, List.reverse_inj.1 hxy⟩

private theorem utf8_caller (tenant node : String) :
    utf8 (caller tenant node) = utf8 tenant.toList ++ [0] ++ utf8 node.toList := by
  unfold caller utf8
  rw [List.flatMap_append, List.flatMap_cons, List.append_assoc]
  rfl

/-- The payload determines the digest of the body, the timestamp, and tenant and node as they are joined. -/
theorem macPayload_inj {r r' : RequestMessage} {tenant node ts tenant' node' ts' : String} (hts : '\x00' ∉ ts.toList)
    (hts' : '\x00' ∉ ts'.toList) (h : macPayload r tenant node ts = macPayload r' tenant' node' ts') :
    Sha256.sha256 r.requestBytes = Sha256.sha256 r'.requestBytes ∧ ts = ts' ∧
      caller tenant node = caller tenant' node' := by
  unfold macPayload at h
  obtain ⟨hhead, hbody⟩ := List.append_inj' h (by rw [Sha256.length_sha256, Sha256.length_sha256])
  have hjoin := List.append_cancel_right hhead
  rw [← utf8_caller, ← utf8_caller, List.append_assoc, List.append_assoc] at hjoin
  obtain ⟨hcaller, htime⟩ := split_last (fun hm => hts (nul_of_zero_mem_utf8 hm))
    (fun hm => hts' (nul_of_zero_mem_utf8 hm)) hjoin
  exact ⟨hbody, String.toList_inj.1 (utf8_inj htime), utf8_inj hcaller⟩

/-- The payload depends on tenant and node as they are joined only. -/
theorem macPayload_congr {r r' : RequestMessage} {tenant node tenant' node' : String}
    (hbytes : r.requestBytes = r'.requestBytes) (hcaller : caller tenant node = caller tenant' node') (ts : String) :
    macPayload r tenant node ts = macPayload r' tenant' node' ts := by
  unfold macPayload
  rw [← utf8_caller, ← utf8_caller, hbytes, hcaller]

/-- Ids without a zero character are determined by how they are joined. -/
theorem caller_inj {tenant node tenant' node' : String} (ht : '\x00' ∉ tenant.toList) (ht' : '\x00' ∉ tenant'.toList)
    (h : caller tenant node = caller tenant' node') : tenant = tenant' ∧ node = node' := by
  obtain ⟨h1, h2⟩ := split_first ht ht' h
  exact ⟨String.toList_inj.1 h1, String.toList_inj.1 h2⟩

/-! ### What is accepted -/

/-- What is assumed of the digests, at the requests that were signed and the one that is verified: whoever presents a MAC
that verifies has it from a holder of the key, and different inputs have different digests. -/
structure Secure (u : Unicode) (signings : List Signing) (metadata : List (String × String)) (request : RequestMessage)
    (config : FleetAuthConfig) : Prop where
  unforgeable : field u metadata authMac = mac request config.psk (field u metadata authTenant)
      (field u metadata authNode) (field u metadata authTs) →
    ∃ s ∈ signings, s.config.psk = config.psk ∧ s.signature = field u metadata authMac
  hmac_inj : ∀ s ∈ signings, Sha256.hmac config.psk s.payload = Sha256.hmac config.psk (macPayload request
      (field u metadata authTenant) (field u metadata authNode) (field u metadata authTs)) →
    s.payload = macPayload request (field u metadata authTenant) (field u metadata authNode) (field u metadata authTs)
  sha256_inj : ∀ s ∈ signings, Sha256.sha256 s.request.requestBytes = Sha256.sha256 request.requestBytes →
    s.request.requestBytes = request.requestBytes

/-- The signing covers the metadata and the bytes of the request, whatever the type of the message. -/
structure Signing.Covers (s : Signing) (u : Unicode) (metadata : List (String × String)) (request : RequestMessage)
    (config : FleetAuthConfig) (now : Rat) : Prop where
  psk : s.config.psk = config.psk
  bytes : s.request.requestBytes = request.requestBytes
  caller : caller s.config.tenantId s.config.nodeId = Auth.caller config.tenantId (field u metadata authNode)
  timestamp : field u metadata authTs = decimal s.timestamp
  recent : age now s.timestamp ≤ config.maxClockSkew
  signature : field u metadata authMac = s.signature

private theorem decimal_nul (n : Int) : '\x00' ∉ (decimal n).toList := by
  intro h
  have u : Unicode := ⟨id, fun _ => none⟩
  have := parseInt_decimal u n
  rw [parseInt_nul u h] at this
  cases this

private theorem signature_ne_empty (s : Signing) : s.signature ≠ "" := by
  intro h
  have hnil : Sha256.hmac s.config.psk s.payload = [] := hex_inj (h.trans rfl)
  have hlen := Sha256.length_hmac s.config.psk s.payload
  rw [hnil] at hlen
  cases hlen

/-- The checks of `verify_metadata`, in order. -/
private theorem verifyMetadata_ok_iff (u : Unicode) (metadata : List (String × String)) (request : RequestMessage)
    (config : FleetAuthConfig) (now : Rat) (tenant node : String) :
    verifyMetadata u metadata request config now = .ok (tenant, node) ↔
      field u metadata authTenant = config.tenantId ∧ tenant = config.tenantId ∧ node = field u metadata authNode ∧
        node ≠ "" ∧ field u metadata authTs ≠ "" ∧ field u metadata authMac ≠ "" ∧
        (∃ ts, parseInt u (field u metadata authTs) = some ts ∧ age now ts ≤ config.maxClockSkew) ∧
        (field u metadata authMac).toList.all isAscii = true ∧
        field u metadata authMac = mac request config.psk config.tenantId node (field u metadata authTs) := by
  unfold verifyMetadata
  dsimp only
  by_cases htenant : field u metadata authTenant = config.tenantId
  · rw [if_neg (not_not_intro htenant), htenant]
    by_cases hmissing : field u metadata authNode = "" ∨ field u metadata authTs = "" ∨ field u metadata authMac = ""
    · rw [if_pos hmissing]
      refine ⟨nofun, ?_⟩
      rintro ⟨-, -, rfl, hnode, hts, hmac, -⟩
      rcases hmissing with h | h | h
      · exact absurd h hnode
      · exact absurd h hts
      · exact absurd h hmac
    · rw [if_neg hmissing]
      rw [not_or, not_or] at hmissing
      cases hparse : parseInt u (field u metadata authTs) with
      | none =>
        refine ⟨nofun, ?_⟩
        rintro ⟨-, -, -, -, -, -, ⟨ts, hts, -⟩, -⟩
        cases hts
      | some ts =>
        dsimp only
        by_cases hage : config.maxClockSkew < age now ts
        · rw [if_pos hage]
          refine ⟨nofun, ?_⟩
          rintro ⟨-, -, -, -, -, -, ⟨ts', hts, hle⟩, -⟩
          obtain rfl := Option.some.inj hts
          exact absurd hage (Rat.not_lt.2 hle)
        · rw [if_neg hage]
          by_cases hascii : (field u metadata authMac).toList.all isAscii = true
          · rw [if_neg (not_not_intro hascii)]
            by_cases hmac : field u metadata authMac =
                mac request config.psk config.tenantId (field u metadata authNode) (field u metadata authTs)
            · rw [if_neg (not_not_intro hmac)]
              constructor
              · intro h
                obtain ⟨rfl, rfl⟩ := Prod.mk.inj (Except.ok.inj h)
                exact ⟨rfl, rfl, rfl, hmissing.1, hmissing.2.1, hmissing.2.2, ⟨ts, rfl, Rat.not_lt.1 hage⟩, hascii, hmac⟩
              · rintro ⟨-, rfl, rfl, -⟩
                rfl
            · rw [if_pos hmac]
              refine ⟨nofun, ?_⟩
              rintro ⟨-, -, rfl, -, -, -, -, -, h⟩
              exact absurd h hmac
          · rw [if_pos hascii]
            refine ⟨nofun, ?_⟩
            rintro ⟨-, -, -, -, -, -, -, h, -⟩
            exact absurd h hascii
  · rw [if_pos htenant]
    exact ⟨nofun, fun h => absurd h.1 htenant⟩

/-- What is accepted is covered by a signing. -/
theorem covers_of_verifyMetadata {u : Unicode} {signings : List Signing} {metadata : List (String × String)}
    {request : RequestMessage} {config : FleetAuthConfig} (hsecure : Secure u signings metadata request config)
    {now : Rat} {tenant node : String} (h : verifyMetadata u metadata request config now = .ok (tenant, node)) :
    ∃ s ∈ signings, s.Covers u metadata request config now := by
  obtain ⟨htenant, rfl, rfl, -, -, -, ⟨ts, hts, hage⟩, -, hmac⟩ := (verifyMetadata_ok_iff ..).1 h
  obtain ⟨s, hs, hpsk, hsig⟩ := hsecure.unforgeable (by rw [htenant]; exact hmac)
  have hdigest : Sha256.hmac config.psk s.payload = Sha256.hmac config.psk (macPayload request
      (field u metadata authTenant) (field u metadata authNode) (field u metadata authTs)) := by
    rw [htenant]
    apply hex_inj
    rw [← hpsk]
    exact hsig.trans (hmac.trans (by rw [← hpsk]; rfl))
  have hnul : '\x00' ∉ (field u metadata authTs).toList := by
    intro h
    rw [parseInt_nul u h] at hts
    cases hts
  obtain ⟨hbody, htime, hcaller⟩ := macPayload_inj (decimal_nul _) hnul (hsecure.hmac_inj s hs hdigest)
  rw [← htime, parseInt_decimal] at hts
  obtain rfl := Option.some.inj hts
  exact ⟨s, hs, hpsk, hsecure.sha256_inj s hs hbody, by rw [hcaller, htenant], htime.symm, hage, hsig.symm⟩

/-- What is covered by a signing is accepted. -/
theorem Signing.Covers.accepted {u : Unicode} {s : Signing} {metadata : List (String × String)}
    {request : RequestMessage} {config : FleetAuthConfig} {now : Rat} (h : s.Covers u metadata request config now)
    (htenant : field u metadata authTenant = config.tenantId) (hnode : field u metadata authNode ≠ "") :
    verifyMetadata u metadata request config now = .ok (config.tenantId, field u metadata authNode) := by
  have hparse := parseInt_decimal u s.timestamp
  rw [← h.timestamp] at hparse
  refine (verifyMetadata_ok_iff ..).2 ⟨htenant, rfl, rfl, hnode, ?_, ?_, ⟨s.timestamp, hparse, h.recent⟩, ?_, ?_⟩
  · intro hempty
    rw [hempty] at hparse
    cases hparse
  · rw [h.signature]
    exact signature_ne_empty s
  · rw [h.signature]
    exact hex_ascii _
  · rw [h.signature, h.timestamp]
    unfold Signing.signature Signing.payload mac
    rw [h.psk, macPayload_congr h.bytes h.caller]

/-- A verification accepts exactly the metadata that some signing with the key covers.  The signing is by the same tenant
and node when no tenant id has a zero character. -/
theorem verifyMetadata_iff (u : Unicode) {signings : List Signing} {metadata : List (String × String)}
    {request : RequestMessage} {config : FleetAuthConfig} (hsecure : Secure u signings metadata request config)
    (now : Rat) (tenant node : String) :
    (verifyMetadata u metadata request config now = .ok (tenant, node) ↔
      field u metadata authTenant = config.tenantId ∧ tenant = config.tenantId ∧ node = field u metadata authNode ∧
        node ≠ "" ∧ ∃ s ∈ signings, s.Covers u metadata request config now) ∧
    ∀ s ∈ signings, s.Covers u metadata request config now → '\x00' ∉ s.config.tenantId.toList →
      '\x00' ∉ config.tenantId.toList →
      s.config.tenantId = config.tenantId ∧ s.config.nodeId = field u metadata authNode := by
  refine ⟨⟨?_, ?_⟩, fun s _ hcovers hs hc => caller_inj hs hc hcovers.caller⟩
  · intro h
    have hcovers := covers_of_verifyMetadata hsecure h
    obtain ⟨htenant, rfl, rfl, hnode, -⟩ := (verifyMetadata_ok_iff ..).1 h
    exact ⟨htenant, rfl, rfl, hnode, hcovers⟩
  · rintro ⟨htenant, rfl, rfl, hnode, s, -, hcovers⟩
    exact hcovers.accepted htenant hnode

/-! ### Two signings -/

/-- The names of the fields are in lower case. -/
private theorem lower_name (u : Unicode) {name : String} (h : name ∈ [authTenant, authNode, authTs, authMac]) :
    lower u name = name.toList := by
  simp only [List.mem_cons, List.not_mem_nil, or_false] at h
  rcases h with rfl | rfl | rfl | rfl
  · rfl
  · rfl
  · rfl
  · rfl

/-- Metadata in the form that is sent. -/
private theorem fields_eq (u : Unicode) (tenant node ts supplied : String) :
    field u [(authTenant, tenant), (authNode, node), (authTs, ts), (authMac, supplied)] authTenant = tenant ∧
      field u [(authTenant, tenant), (authNode, node), (authTs, ts), (authMac, supplied)] authNode = node ∧
      field u [(authTenant, tenant), (authNode, node), (authTs, ts), (authMac, supplied)] authTs = ts ∧
      field u [(authTenant, tenant), (authNode, node), (authTs, ts), (authMac, supplied)] authMac = supplied := by
  unfold field
  simp only [List.filter_cons, List.filter_nil, lower_name u (show authTenant ∈ _ by simp),
    lower_name u (show authNode ∈ _ by simp), lower_name u (show authTs ∈ _ by simp),
    lower_name u (show authMac ∈ _ by simp), String.toList_inj]
  simp [authTenant, authNode, authTs, authMac]

variable {u : Unicode} {s : Signing} {request : RequestMessage} {config : FleetAuthConfig} {tenant node : String}

/-- The metadata that a signing sends, under a tenant and a node of choice. -/
def presented (s : Signing) (tenant node : String) : List (String × String) :=
  [(authTenant, tenant), (authNode, node), (authTs, decimal s.timestamp), (authMac, s.signature)]

theorem Signing.metadata_eq (s : Signing) : s.metadata = presented s s.config.tenantId s.config.nodeId := rfl

/-- With one signing nothing can collide, and its signature is not forged. -/
private theorem presented_secure (hpsk : s.config.psk = config.psk)
    (hbytes : s.request.requestBytes = request.requestBytes)
    (hcaller : caller s.config.tenantId s.config.nodeId = caller tenant node) :
    Secure u [s] (presented s tenant node) request config := by
  obtain ⟨h1, h2, h3, h4⟩ := fields_eq u tenant node (decimal s.timestamp) s.signature
  constructor
  · intro _
    exact ⟨s, by simp, hpsk, h4.symm⟩
  · intro s' hs' _
    obtain rfl := List.mem_singleton.1 hs'
    unfold presented
    rw [h1, h2, h3]
    exact macPayload_congr hbytes hcaller _
  · intro s' hs' _
    obtain rfl := List.mem_singleton.1 hs'
    exact hbytes

/-- A signing covers what it is presented for while it is recent. -/
private theorem presented_covers (hpsk : s.config.psk = config.psk)
    (hbytes : s.request.requestBytes = request.requestBytes)
    (hcaller : caller s.config.tenantId s.config.nodeId = caller config.tenantId node) {now : Rat}
    (hrecent : age now s.timestamp ≤ config.maxClockSkew) :
    s.Covers u (presented s tenant node) request config now := by
  obtain ⟨-, h2, h3, h4⟩ := fields_eq u tenant node (decimal s.timestamp) s.signature
  refine ⟨hpsk, hbytes, ?_, h3, hrecent, h4⟩
  unfold presented
  rw [h2]
  exact hcaller

private theorem presented_accepted (hpsk : s.config.psk = config.psk)
    (hbytes : s.request.requestBytes = request.requestBytes)
    (hcaller : caller s.config.tenantId s.config.nodeId = caller config.tenantId node) (hnode : node ≠ "") {now : Rat}
    (hrecent : age now s.timestamp ≤ config.maxClockSkew) :
    verifyMetadata u (presented s config.tenantId node) request config now = .ok (config.tenantId, node) := by
  obtain ⟨h1, h2, -, -⟩ := fields_eq u config.tenantId node (decimal s.timestamp) s.signature
  have h := (presented_covers hpsk hbytes hcaller hrecent).accepted h1
    (by unfold presented; rw [h2]; exact hnode)
  unfold presented at h ⊢
  rwa [h2] at h

/-- What a node of the tenant sends is accepted for the request it signed, while it is recent. -/
theorem Signing.accepted (hpsk : s.config.psk = config.psk) (htenant : s.config.tenantId = config.tenantId) {now : Rat}
    (hrecent : age now s.timestamp ≤ config.maxClockSkew) :
    verifyMetadata u s.metadata s.request config now = .ok (config.tenantId, s.config.nodeId) := by
  rw [Signing.metadata_eq, htenant]
  exact presented_accepted hpsk rfl (by rw [htenant]) s.config.node_ne hrecent

/-- A configuration of a node. -/
def nodeConfig : FleetAuthConfig :=
  ⟨List.replicate 32 120, "tenant-a", "node-a", 30, by decide, by decide, by decide, by decide⟩

/-- The node asks for the status of a job. -/
def statusSigning : Signing := ⟨⟨.getPrefillJobStatus "job-1" "tenant-a", []⟩, nodeConfig, 100⟩

/-- What the node has signed is accepted ten seconds later. -/
theorem status_request_accepted :
    verifyMetadata ⟨id, fun _ => none⟩ statusSigning.metadata statusSigning.request nodeConfig 110 =
      .ok ("tenant-a", "node-a") := by
  rw [Signing.metadata_eq]
  have hsecure : Secure ⟨id, fun _ => none⟩ [statusSigning] (presented statusSigning "tenant-a" "node-a")
      statusSigning.request nodeConfig := presented_secure rfl rfl rfl
  have hcovers : statusSigning.Covers ⟨id, fun _ => none⟩ (presented statusSigning "tenant-a" "node-a")
      statusSigning.request nodeConfig 110 := presented_covers rfl rfl rfl (by decide +kernel)
  exact (verifyMetadata_iff _ hsecure 110 "tenant-a" "node-a").1.2
    ⟨rfl, rfl, rfl, by decide, statusSigning, by simp, hcovers⟩

/-- Exact binding at one verification: what is accepted was signed for the call, the bytes, the tenant and the node. -/
def SignedExactly (u : Unicode) (signings : List Signing) (metadata : List (String × String)) (request : RequestMessage)
    (config : FleetAuthConfig) (now : Rat) : Prop :=
  Secure u signings metadata request config → ∀ tenant node,
    verifyMetadata u metadata request config now = .ok (tenant, node) →
    ∃ s ∈ signings, s.config.psk = config.psk ∧ s.request.known.rpc = request.known.rpc ∧
      s.request.requestBytes = request.requestBytes ∧ s.config.tenantId = tenant ∧ s.config.nodeId = node ∧
      age now s.timestamp ≤ config.maxClockSkew

/-- A node of another tenant, whose id has a zero character. -/
def nulSigning : Signing :=
  ⟨⟨.fetchBlocks "lease", []⟩,
    ⟨List.replicate 32 120, "tenant-a\x00node", "b", 30, by decide, by decide, by decide, by decide⟩, 100⟩

/-- The signature of a status request cancels the job, and a signature of another tenant is accepted when its id holds a
zero character. -/
theorem signature_not_exact :
    ¬ SignedExactly ⟨id, fun _ => none⟩ [statusSigning] statusSigning.metadata
      ⟨.cancelPrefillJob "job-1" "tenant-a", []⟩ nodeConfig 100 ∧
    ¬ SignedExactly ⟨id, fun _ => none⟩ [nulSigning] (presented nulSigning "tenant-a" "node\x00b")
      nulSigning.request nodeConfig 100 := by
  constructor
  · rw [Signing.metadata_eq]
    intro h
    obtain ⟨s, hs, -, hrpc, -⟩ := h (presented_secure rfl rfl rfl) "tenant-a" "node-a"
      (presented_accepted rfl rfl rfl (by decide) (by decide +kernel))
    obtain rfl := List.mem_singleton.1 hs
    cases hrpc
  · intro h
    have hcaller : caller nulSigning.config.tenantId nulSigning.config.nodeId = caller "tenant-a" "node\x00b" := by decide
    have hpsk : nulSigning.config.psk = nodeConfig.psk := rfl
    have hrecent : age 100 nulSigning.timestamp ≤ nodeConfig.maxClockSkew := by decide +kernel
    obtain ⟨s, hs, -, -, -, htenant, -⟩ := h (presented_secure hpsk rfl hcaller) "tenant-a" "node\x00b"
      (presented_accepted hpsk rfl hcaller (by decide) hrecent)
    obtain rfl := List.mem_singleton.1 hs
    revert htenant
    decide

end Auth

end KakeyaEngine
